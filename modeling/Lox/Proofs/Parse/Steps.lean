import Lox.Proofs.Parse.Logic
import Lox.Proofs.Parse.Reading

namespace Lox

variable {α : Type}

structure Gives (m : Mode) (P : List Mark → α → Prop) (c : Cursor) (a : α) (d : Cursor) : Prop where
  built : ∃ ms, P ms a ∧ c.Yields ms d
  depth_eq : m ≠ .opened → d.depth = c.depth

def Parser.Sound (m : Mode) (n : ℕ) (P : List Mark → α → Prop) (p : Parser α) : Prop :=
  n ≤ maxNesting → ∀ c, c.depth = n → Ends p c (Gives m P c) (Stopped c)

lemma ends_enter {c : Cursor} {ok : Unit → Cursor → Prop} {stop : Stop → Cursor → Prop}
    (hrefuse : Ends (Parser.failHere .tooMuchNesting) c ok stop)
    (hok : c.depth < maxNesting → ok () { c with depth := c.depth + 1 }) : Ends Parser.enter c ok stop := by
  change Ends (if maxNesting ≤ c.depth then Parser.failHere .tooMuchNesting else Parser.setDepth (c.depth + 1)) c ok _
  split
  · exact hrefuse
  · rename_i hd
    exact hok (by omega)

namespace Reached

variable {c d : Cursor} {ms : List Mark} {ok : α → Cursor → Prop}

lemma peek {ok : Token → Cursor → Prop} (h : Reached c ms d) (hok : ∀ t rest, d.rest = t :: rest → ok t d) :
    Ends Parser.peek d ok (Stopped c) := by
  unfold Ends Parser.peek
  cases hr : d.rest with
  | nil => exact h.stopped_here (by simp [hr])
  | cons t rest => exact hok t rest hr

lemma failHere (h : Reached c ms d) (kind : SyntaxFault.Kind) : Ends (Parser.failHere kind) d ok (Stopped c) := by
  rw [Parser.failHere, ends_bind]
  apply h.peek
  intro t rest _
  exact h.stopped_here (by simp)

lemma advance {ok : Token → Cursor → Prop} {t : Token} {rest : List Token} {m : Mark} (h : Reached c ms d)
    (hr : d.rest = t :: rest) (ht : t.isEof = false) (hm : m.Accepts t)
    (hok : ∀ e, Reached c (ms ++ [m]) e → e.depth = d.depth → ok t e) :
    Ends Parser.advance d ok (Stopped c) := by
  simp only [Ends, Parser.advance, hr, ht, Bool.false_eq_true, if_false]
  exact hok _ (h.next (.token hr rfl ht hm) rfl) rfl

lemma enter {ok : Unit → Cursor → Prop} (h : Reached c ms d)
    (hok : d.depth < maxNesting → Reached c ms { d with depth := d.depth + 1 } →
      ok () { d with depth := d.depth + 1 }) : Ends Parser.enter d ok (Stopped c) := by
  apply ends_enter (h.failHere _)
  intro hlt
  exact hok hlt ⟨h.yields.withDepth _, Nat.le_succ_of_le h.depth_le, hlt⟩

lemma run {m : Mode} {P Q : List Mark → α → Prop} {p : Parser α} (h : Reached c ms d) (hd : d.depth = c.depth)
    (hp : Ends p d (Gives m Q d) (Stopped d)) (hQ : ∀ ns a, Q ns a → P (ms ++ ns) a) :
    Ends p d (Gives m P c) (Stopped c) := by
  refine hp.mono ?_ fun _ _ => h.stopped
  rintro a e ⟨⟨ns, ha, hy⟩, he⟩
  exact ⟨⟨ms ++ ns, hQ ns a ha, h.yields.trans hy⟩, fun hm => (he hm).trans hd⟩

end Reached

variable {c : Cursor} {stop : Stop → Cursor → Prop}

lemma ends_depth {ok : ℕ → Cursor → Prop} : Ends Parser.depth c ok stop ↔ ok c.depth c := Iff.rfl

lemma ends_setDepth {ok : Unit → Cursor → Prop} {n : ℕ} :
    Ends (Parser.setDepth n) c ok stop ↔ ok () { c with depth := n } := Iff.rfl

lemma ends_nested {p : Parser α} {ok : α → Cursor → Prop} :
    Ends (Parser.nested p) c ok stop ↔ Ends Parser.enter c (fun _ d =>
      Ends p d (fun a e => ok a { e with depth := e.depth - 1 }) (fun x e => stop x { e with depth := e.depth - 1 }))
      stop := by
  simp only [Ends, Parser.nested, bind, EStateM.bind]
  cases Parser.enter c with
  | error e d => rfl
  | ok _ d => cases hp : p d <;> simp only [hp]

lemma Gives.nested {P : List Mark → α → Prop} {p : Parser α} (hd : c.depth ≤ maxNesting)
    (hp : c.depth < maxNesting → ∀ d, d = { c with depth := c.depth + 1 } → Ends p d (Gives .within P d) (Stopped d)) :
    Ends (Parser.nested p) c (Gives .within (fun ms a => c.depth < maxNesting ∧ P ms a) c) (Stopped c) := by
  rw [ends_nested]
  apply (Reached.start hd).enter
  intro hlt hr
  apply (hp hlt _ rfl).mono
  · rintro a e ⟨⟨ms, ha, ts, fs, hr, hc⟩, he⟩
    refine ⟨⟨ms, ⟨hlt, ha⟩, ts, fs, ⟨hr.rest, hr.faults, hr.noEnd⟩, hc⟩, fun hm => ?_⟩
    simp only [he hm, Nat.add_sub_cancel]
  · intro x e hs
    obtain ⟨ts, fs, hr⟩ := hs.reads
    have hle := hs.depth_le
    have hb := hs.depth_bound
    refine ⟨⟨ts, fs, hr.rest, hr.faults, hr.noEnd⟩, ?_, ?_, hs.missing⟩
    · dsimp only at hle ⊢
      omega
    · dsimp only
      omega

end Lox
