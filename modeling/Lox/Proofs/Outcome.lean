import Mathlib.Tactic.Lemma

namespace Lox

variable {ε σ α β : Type}

def Ends (p : EStateM ε σ α) (s : σ) (ok : α → σ → Prop) (stop : ε → σ → Prop) : Prop :=
  match p s with
  | .ok a s' => ok a s'
  | .error e s' => stop e s'

lemma Ends.mono {p : EStateM ε σ α} {s : σ} {ok ok' : α → σ → Prop} {stop stop' : ε → σ → Prop}
    (h : Ends p s ok stop) (hok : ∀ a t, ok a t → ok' a t) (hstop : ∀ e t, stop e t → stop' e t) :
    Ends p s ok' stop' := by
  unfold Ends at h ⊢
  split at h
  · exact hok _ _ h
  · exact hstop _ _ h

lemma Ends.of_forall {p : EStateM ε σ α} {s : σ} {ok : α → σ → Prop} {stop : ε → σ → Prop} (hok : ∀ a t, ok a t)
    (hstop : ∀ e t, stop e t) : Ends p s ok stop := by
  unfold Ends
  split
  · exact hok _ _
  · exact hstop _ _

lemma Ends.ok {p : EStateM ε σ α} {s t : σ} {a : α} {ok : α → σ → Prop} {stop : ε → σ → Prop}
    (h : Ends p s ok stop) (hp : p s = .ok a t) : ok a t := by
  simpa only [Ends, hp] using h

lemma Ends.stop {p : EStateM ε σ α} {s t : σ} {e : ε} {ok : α → σ → Prop} {stop : ε → σ → Prop}
    (h : Ends p s ok stop) (hp : p s = .error e t) : stop e t := by
  simpa only [Ends, hp] using h

lemma Ends.and {p : EStateM ε σ α} {s : σ} {ok ok' : α → σ → Prop} {stop stop' : ε → σ → Prop}
    (h : Ends p s ok stop) (h' : Ends p s ok' stop') :
    Ends p s (fun a t => ok a t ∧ ok' a t) (fun e t => stop e t ∧ stop' e t) := by
  cases hp : p s with
  | ok a t => simpa only [Ends, hp] using ⟨h.ok hp, h'.ok hp⟩
  | error e t => simpa only [Ends, hp] using ⟨h.stop hp, h'.stop hp⟩

variable {s : σ} {ok : α → σ → Prop} {stop : ε → σ → Prop}

@[simp] lemma ends_pure (a : α) : Ends (pure a : EStateM ε σ α) s ok stop ↔ ok a s :=
  Iff.rfl

@[simp] lemma ends_bind (p : EStateM ε σ β) (f : β → EStateM ε σ α) :
    Ends (p >>= f) s ok stop ↔ Ends p s (fun b t => Ends (f b) t ok stop) stop := by
  simp only [Ends, bind, EStateM.bind]
  cases p s <;> rfl

@[simp] lemma ends_map (f : β → α) (p : EStateM ε σ β) :
    Ends (f <$> p) s ok stop ↔ Ends p s (fun b t => ok (f b) t) stop := by
  simp only [Ends, Functor.map, EStateM.map]
  cases p s <;> rfl

@[simp] lemma ends_get {ok : σ → σ → Prop} : Ends (get : EStateM ε σ σ) s ok stop ↔ ok s s :=
  Iff.rfl

/-- Every run from a state with the invariant ends in one, and `ok` or `stop` tells how. -/
structure Keeps (inv : σ → Prop) (p : EStateM ε σ α) (ok : α → Prop) (stop : ε → Prop) : Prop where
  ends : ∀ s, inv s → Ends p s (fun a t => inv t ∧ ok a) (fun e t => inv t ∧ stop e)

namespace Keeps

variable {inv : σ → Prop} {ok : α → Prop} {stop : ε → Prop}

lemma pure {a : α} (ha : ok a) : Keeps inv (Pure.pure a) ok stop := ⟨fun _ hs => ⟨hs, ha⟩⟩

lemma throw {e : ε} (he : stop e) : Keeps inv (MonadExcept.throw e) ok stop := ⟨fun _ hs => ⟨hs, he⟩⟩

lemma bind {p : EStateM ε σ β} {f : β → EStateM ε σ α} {mid : β → Prop} (hp : Keeps inv p mid stop)
    (hf : ∀ b, mid b → Keeps inv (f b) ok stop) : Keeps inv (p >>= f) ok stop := by
  refine ⟨fun s hs => ?_⟩
  rw [ends_bind]
  exact (hp.ends s hs).mono (fun b t h => (hf b h.2).ends t h.1) fun _ _ h => h

lemma mono {p : EStateM ε σ α} {ok' : α → Prop} {stop' : ε → Prop} (hp : Keeps inv p ok stop)
    (hok : ∀ a, ok a → ok' a) (hstop : ∀ e, stop e → stop' e) : Keeps inv p ok' stop' := by
  refine ⟨fun s hs => ?_⟩
  exact (hp.ends s hs).mono (fun a _ h => ⟨h.1, hok a h.2⟩) fun e _ h => ⟨h.1, hstop e h.2⟩

end Keeps

end Lox
