import Lox.Proofs.Outcome
import Mathlib.Logic.Relation

/-! Two computations that end alike: from related states both give related values, or both stop with related
failures, and the states are related again. -/

namespace Lox

variable {ε φ σ τ α β γ δ : Type}

lemma bind_eq_of_ok {p : EStateM ε σ α} {f : α → EStateM ε σ β} {s s' : σ} {a : α} (h : p s = .ok a s') :
    (p >>= f) s = f a s' := by
  simp only [bind, EStateM.bind, h]

lemma bind_eq_of_error {p : EStateM ε σ α} {f : α → EStateM ε σ β} {s s' : σ} {e : ε} (h : p s = .error e s') :
    (p >>= f) s = .error e s' := by
  simp only [bind, EStateM.bind, h]

lemma exists_of_bind_eq_ok {p : EStateM ε σ α} {f : α → EStateM ε σ β} {s s' : σ} {b : β}
    (h : (p >>= f) s = .ok b s') : ∃ a t, p s = .ok a t ∧ f a t = .ok b s' := by
  cases hp : p s with
  | ok a t => exact ⟨a, t, rfl, (bind_eq_of_ok hp).symm.trans h⟩
  | error e t => simp only [bind_eq_of_error hp, reduceCtorEq] at h

lemma ends_of_ok {p : EStateM ε σ α} {s s' : σ} {a : α} {ok : α → σ → Prop} {stop : ε → σ → Prop}
    (h : p s = .ok a s') (ha : ok a s') : Ends p s ok stop := by
  simpa only [Ends, h] using ha

lemma ends_of_error {p : EStateM ε σ α} {s s' : σ} {e : ε} {ok : α → σ → Prop} {stop : ε → σ → Prop}
    (h : p s = .error e s') (he : stop e s') : Ends p s ok stop := by
  simpa only [Ends, h] using he

def stateAfter (p : EStateM ε σ α) (s : σ) : σ :=
  match p s with
  | .ok _ s' => s'
  | .error _ s' => s'

lemma Ends.stateAfter {p : EStateM ε σ α} {s : σ} {P : σ → Prop} (h : Ends p s (fun _ t => P t) (fun _ t => P t)) :
    P (stateAfter p s) := by
  simp only [Ends] at h
  simp only [Lox.stateAfter]
  cases hp : p s <;> simpa only [hp] using h

lemma view_stateAfter_bind (view : σ → τ) {p : EStateM ε σ α} {f : α → EStateM ε σ β}
    (hf : ∀ a s, view (stateAfter (f a) s) = view s) (s : σ) :
    view (stateAfter (p >>= f) s) = view (stateAfter p s) := by
  cases hp : p s with
  | ok a t => simpa only [stateAfter, bind_eq_of_ok hp, hp] using hf a t
  | error e t => simp only [stateAfter, bind_eq_of_error hp, hp]

lemma stateAfter_bind_of_still {p : EStateM ε σ α} {f : α → EStateM ε σ β} (hf : ∀ a s, stateAfter (f a) s = s)
    (s : σ) : stateAfter (p >>= f) s = stateAfter p s :=
  view_stateAfter_bind id hf s

def mapState (f : σ → τ) : EStateM.Result ε σ α → EStateM.Result ε τ α
  | .ok a s => .ok a (f s)
  | .error e s => .error e (f s)

structure Agrees (R : σ → τ → Prop) (A : α → β → Prop) (E : ε → φ → Prop) (p : EStateM ε σ α)
    (q : EStateM φ τ β) : Prop where
  ends : ∀ s t, R s t → Ends p s (fun a s' => ∃ b t', q t = .ok b t' ∧ A a b ∧ R s' t')
    (fun e s' => ∃ f t', q t = .error f t' ∧ E e f ∧ R s' t')

namespace Agrees

variable {R : σ → τ → Prop} {A : α → β → Prop} {B : γ → δ → Prop} {E : ε → φ → Prop}

lemma pure {a : α} {b : β} (h : A a b) : Agrees R A E (Pure.pure a) (Pure.pure b) :=
  ⟨fun _ t hs => ⟨b, t, rfl, h, hs⟩⟩

lemma refl (p : EStateM ε σ α) : Agrees Eq Eq Eq p p := by
  refine ⟨?_⟩
  rintro s _ rfl
  cases hp : p s with
  | ok a t => exact ends_of_ok hp ⟨a, t, rfl, rfl, rfl⟩
  | error e t => exact ends_of_error hp ⟨e, t, rfl, rfl, rfl⟩

lemma throw {e : ε} {f : φ} (h : E e f) : Agrees R A E (MonadExcept.throw e) (MonadExcept.throw f) :=
  ⟨fun _ t hs => ⟨f, t, rfl, h, hs⟩⟩

lemma bind {p : EStateM ε σ α} {q : EStateM φ τ β} {f : α → EStateM ε σ γ} {g : β → EStateM φ τ δ}
    (hp : Agrees R A E p q) (hf : ∀ a b, A a b → Agrees R B E (f a) (g b)) : Agrees R B E (p >>= f) (q >>= g) := by
  refine ⟨fun s t hs => ?_⟩
  rw [ends_bind]
  apply (hp.ends s t hs).mono
  · rintro a s' ⟨b, t', hq, ha, hs'⟩
    rw [bind_eq_of_ok hq]
    exact (hf a b ha).ends s' t' hs'
  · rintro e s' ⟨f, t', hq, he, hs'⟩
    exact ⟨f, t', bind_eq_of_error hq, he, hs'⟩

lemma map {p : EStateM ε σ α} {q : EStateM φ τ β} {f : α → γ} {g : β → δ} (hp : Agrees R A E p q)
    (hf : ∀ a b, A a b → B (f a) (g b)) : Agrees R B E (f <$> p) (g <$> q) := by
  rw [map_eq_pure_bind, map_eq_pure_bind]
  exact hp.bind fun a b h => .pure (hf a b h)

lemma ite {c : Prop} [Decidable c] {p p' : EStateM ε σ α} {q q' : EStateM φ τ β} (h : Agrees R A E p q)
    (h' : Agrees R A E p' q') : Agrees R A E (if c then p else p') (if c then q else q') := by
  split
  · exact h
  · exact h'

lemma congr {p : EStateM ε σ α} {q : EStateM φ τ β} {R' : σ → τ → Prop} {A' : α → β → Prop} {E' : ε → φ → Prop}
    (h : Agrees R A E p q) (hR : ∀ s t, R s t ↔ R' s t) (hA : ∀ a b, A a b → A' a b) (hE : ∀ e f, E e f → E' e f) :
    Agrees R' A' E' p q := by
  refine ⟨fun s t hs => (h.ends s t ((hR s t).mpr hs)).mono ?_ ?_⟩
  · rintro a s' ⟨b, t', hq, ha, hs'⟩
    exact ⟨b, t', hq, hA a b ha, (hR s' t').mp hs'⟩
  · rintro e s' ⟨f, t', hq, he, hs'⟩
    exact ⟨f, t', hq, hE e f he, (hR s' t').mp hs'⟩

lemma symm {p : EStateM ε σ α} {q : EStateM φ τ β} (h : Agrees R A E p q) :
    Agrees (flip R) (flip A) (flip E) q p := by
  refine ⟨fun t s hs => ?_⟩
  have he := h.ends s t hs
  cases hp : p s with
  | ok a s' =>
    obtain ⟨b, t', hq, ha, hs'⟩ := he.ok hp
    exact ends_of_ok hq ⟨a, s', rfl, ha, hs'⟩
  | error e s' =>
    obtain ⟨f, t', hq, he', hs'⟩ := he.stop hp
    exact ends_of_error hq ⟨e, s', rfl, he', hs'⟩

lemma trans {ψ υ ζ : Type} {p : EStateM ε σ α} {q : EStateM φ τ β} {r : EStateM ψ υ ζ} {R' : τ → υ → Prop}
    {A' : β → ζ → Prop} {E' : φ → ψ → Prop} (h : Agrees R A E p q) (h' : Agrees R' A' E' q r) :
    Agrees (Relation.Comp R R') (Relation.Comp A A') (Relation.Comp E E') p r := by
  refine ⟨?_⟩
  rintro s u ⟨t, hst, htu⟩
  have he' := h'.ends t u htu
  apply (h.ends s t hst).mono
  · rintro a s' ⟨b, t', hq, ha, hs'⟩
    obtain ⟨c, u', hr, hb, ht'⟩ := he'.ok hq
    exact ⟨c, u', hr, ⟨b, ha, hb⟩, t', hs', ht'⟩
  · rintro e s' ⟨f, t', hq, he, hs'⟩
    obtain ⟨g, u', hr, hf, ht'⟩ := he'.stop hq
    exact ⟨g, u', hr, ⟨f, he, hf⟩, t', hs', ht'⟩

lemma ends_left {p : EStateM ε σ α} {q : EStateM φ τ β} {s : σ} {t : τ} {P : σ → Prop} (h : Agrees R A E p q)
    (hs : R s t) (hP : ∀ s' t', R s' t' → P s') : Ends p s (fun _ s' => P s') (fun _ s' => P s') := by
  apply (h.ends s t hs).mono
  · rintro a s' ⟨b, t', -, -, hs'⟩
    exact hP s' t' hs'
  · rintro e s' ⟨f, t', -, -, hs'⟩
    exact hP s' t' hs'

lemma transfer {p : EStateM ε σ α} {q : EStateM ε τ α} {s : σ} {t : τ} {ok : α → τ → Prop} {stop : ε → τ → Prop}
    {R : σ → τ → Prop} (h : Agrees R Eq Eq p q) (hs : R s t) (hq : Ends q t ok stop) :
    Ends p s (fun a s' => ∃ t', R s' t' ∧ ok a t') (fun e s' => ∃ t', R s' t' ∧ stop e t') := by
  apply (h.ends s t hs).mono
  · rintro a s' ⟨_, t', hr, rfl, hs'⟩
    exact ⟨t', hs', hq.ok hr⟩
  · rintro e s' ⟨_, t', hr, rfl, hs'⟩
    exact ⟨t', hs', hq.stop hr⟩

end Agrees

end Lox
