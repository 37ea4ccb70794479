import Lox.Proofs.Machine.Trail

namespace Lox.Machine

variable {δ : Type} [Device δ]

/-- The machines that programs lead to, one after the other. Between two programs the sink may become another. -/
inductive Reachable : Machine δ → Prop
  | start (sink : Sink δ) : Reachable (.start sink)
  | interpret {m : Machine δ} (statements : List Stmt) : Reachable m →
      Reachable (stateAfter (Lox.interpret statements) m)
  | redirect {m : Machine δ} (sink : Sink δ) : Reachable m → Reachable { m with sink }

structure AtRest (m : Machine δ) : Prop where
  linked : m.scopes.Linked
  current : m.scopes.current = 0

namespace AtRest

variable {m : Machine δ}

omit [Device δ] in
lemma shows (h : m.AtRest) : m.Shows 0 m.onStack :=
  ⟨h.linked, h.current, rfl⟩

omit [Device δ] in
lemma depth (h : m.AtRest) : m.scopes.depth = 1 := by
  rw [Scopes.depth, ← h.linked.current_last, h.current]

lemma interpret (h : m.AtRest) (statements : List Stmt) : (stateAfter (Lox.interpret statements) m).AtRest :=
  ((interpret_agrees statements 0).ends_left h.shows fun _ _ hm => ⟨hm.linked, hm.blocks⟩).stateAfter

end AtRest

lemma Reachable.atRest {m : Machine δ} (hm : m.Reachable) : m.AtRest := by
  induction hm with
  | start sink => exact ⟨Scopes.linked_global, rfl⟩
  | interpret statements _ ih => exact ih.interpret statements
  | redirect sink _ ih => exact ⟨ih.linked, ih.current⟩

def trail (m : Machine δ) (statements : List Stmt) : List Scopes :=
  Stmt.trailAll statements (m.note (.interpreting statements.length))

lemma trail_path {m : Machine δ} (h : m.scopes.Linked) (statements : List Stmt) :
    Scopes.Path m.scopes (m.trail statements) (stateAfter (interpret statements) m).scopes := by
  have hp := Stmt.trailAll_path statements (m.note (.interpreting statements.length)) h
  rw [← view_stateAfter_bind scopes fun _ => Exec.scopes_toSink _ _] at hp
  exact hp

theorem interpret_refines_stack (m : Machine δ) (hm : m.Reachable) (statements : List Stmt) :
    Ends (interpret statements) m
        (fun _ m' => interpretOnStack statements m.onStack = .ok () m'.onStack)
        (fun t m' => interpretOnStack statements m.onStack = .error t m'.onStack) ∧
      Scopes.Path m.scopes (m.trail statements) (stateAfter (interpret statements) m).scopes ∧
      (∀ s ∈ m.trail statements, s.Linked ∧ s.InBounds) ∧
      (stateAfter (interpret statements) m).scopes.Linked ∧
      (stateAfter (interpret statements) m).scopes.depth = 1 := by
  have hr := hm.atRest
  have hp := trail_path hr.linked statements
  have hafter := hr.interpret statements
  refine ⟨?_, hp, ?_, hafter.linked, hafter.depth⟩
  · apply ((interpret_agrees statements 0).ends m m.onStack hr.shows).mono
    · rintro _ m' ⟨_, _, hq, rfl, hs⟩
      rw [hq, hs.same]
    · rintro t m' ⟨_, _, hq, rfl, hs⟩
      rw [hq, hs.same]
  · intro s hs
    have hl := hp.linked hr.linked s hs
    exact ⟨hl, hl.inBounds⟩

inductive Flaky where
  | fresh
  | recovered

instance : Device Flaky where
  write d _ :=
    match d with
    | .fresh => (.refused 0 "sink unavailable", .recovered)
    | .recovered => (.taken, .recovered)
  flush d := (none, d)

def nestedPrint : List Stmt :=
  -- `{ var a = "b"; { print a; } }`
  let a : Token := ⟨.identifier "a", "a", 1⟩
  [.block [.var a (some (.literal (.string "b"))), .block [.print (.variable a)]]]

def interrupted : Machine Flaky :=
  -- A machine that was stopped in the inner block.
  stateAfter (interpret nestedPrint) (.start ⟨.empty, .fresh⟩)

theorem interpret_refines_stack_interrupted :
    interrupted.Reachable ∧
      Ends (interpret [.block [.print (.literal (.bool true))]]) interrupted
        (fun _ m' => interpretOnStack [.block [.print (.literal (.bool true))]] interrupted.onStack = .ok () m'.onStack)
        (fun t m' =>
          interpretOnStack [.block [.print (.literal (.bool true))]] interrupted.onStack = .error t m'.onStack) ∧
      (∀ s ∈ interrupted.trail [.block [.print (.literal (.bool true))]], s.Linked ∧ s.InBounds) := by
  have hm : interrupted.Reachable := .interpret nestedPrint (.start _)
  have h := interpret_refines_stack interrupted hm [.block [.print (.literal (.bool true))]]
  exact ⟨hm, h.1, h.2.2.1⟩

end Lox.Machine
