import Lox.Prompt
import Mathlib.Tactic.Lemma

namespace Lox.Session

variable {δ : Type}

def Action.after {α : Type} (p : Action δ α) (s : Session δ) : Session δ :=
  match p s with
  | .ok _ s' => s'
  | .error _ s' => s'

inductive Call where
  | run (source : String)
  | runFile (path : String) (contents : Except ReadFault ByteArray)
  | runLines (input : ByteArray)
  | scan (source : String)
  | parse (tokens : List Token)
  | interpret (statements : List Stmt)

variable [Device δ]

def Call.perform : Call → Session δ → Session δ
  | .run source, s => (Session.run source).after s
  | .runFile path contents, s => (Session.runFile path contents).after s
  | .runLines input, s => (Prompt.run s input).session
  | .scan source, s => (Session.scan source).after s
  | .parse tokens, s => (Session.parse tokens).after s
  | .interpret statements, s => (Session.interpret statements).after s

inductive Reachable (sink : Sink δ) : Session δ → Prop
  | start : Reachable sink (.start sink)
  | call {s : Session δ} (c : Call) : Reachable sink s → Reachable sink (c.perform s)

lemma take_eq_after (s : Session δ) (line : String) :
    (Turn.take s line).2 = (run (String.ofList (Text.trim line.toList))).after s := by
  unfold Turn.take Action.after
  cases run (String.ofList (Text.trim line.toList)) s with
  | ok _ s' => rfl
  | error f s' => cases f <;> rfl

lemma exists_take_of_step {s t : Session δ} {read : ByteArray} {turn : Turn}
    (h : Prompt.step s read = .turn turn t) : ∃ text, t = (Turn.take s text).2 := by
  unfold Prompt.step at h
  split at h
  · cases h
  · split at h
    · cases h
    · exact ⟨_, (Prompt.Step.turn.inj h).2.symm⟩

lemma runOnto_invariant {inv : Session δ → Prop} (hrun : ∀ source s, inv s → inv ((run source).after s))
    (done : List Turn) {s : Session δ} (hs : inv s) (lines : List (List UInt8)) :
    inv (Prompt.runOnto done s lines).session := by
  induction lines generalizing done s with
  | nil => exact hs
  | cons line lines ih =>
    unfold Prompt.runOnto
    cases hstep : Prompt.step s ⟨line.toArray⟩ with
    | farewell => exact hs
    | unreadable => exact hs
    | turn turn t =>
      obtain ⟨text, ht⟩ := exists_take_of_step hstep
      apply ih
      rw [ht, take_eq_after]
      exact hrun _ s hs

end Lox.Session
