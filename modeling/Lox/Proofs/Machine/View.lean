import Lox.Proofs.Machine.Lines
import Lox.Proofs.Machine.Refinement
import Mathlib.Data.Option.Basic

/-! A program sees of its scopes only what each name means. Which frame a variable lies in makes no difference, so a
program in a block of its own does what it does outside. -/

namespace Lox

namespace Stack

variable {s t : Stack} {name : String} {v : Value} {n : ℕ}

lemma get?_define (s : Stack) (name : String) (v : Value) (m : String) :
    (s.define name v).get? m = if m = name then some v else s.get? m := by
  cases s <;> by_cases hm : m = name <;> simp [define, get?, hm]

lemma get?_of_assign? (h : s.assign? name v = some t) (m : String) :
    t.get? m = if m = name then some v else s.get? m := by
  induction s generalizing t with
  | global vars =>
    rw [assign?] at h
    split at h
    · cases h
      exact get?_define _ name v m
    · cases h
  | scope vars outer ih =>
    rw [assign?] at h
    split at h
    · cases h
      exact get?_define _ name v m
    · rename_i hname
      obtain ⟨u, hu, rfl⟩ := Option.map_eq_some_iff.mp h
      rw [get?, get?, ih hu]
      by_cases hm : m = name
      · rw [Option.not_isSome_iff_eq_none] at hname
        simp [hm, hname]
      · simp [hm]

/-- The stacks have the same `n` inner scopes, and in what is outside of these every name looks the same. -/
inductive Alike : ℕ → Stack → Stack → Prop
  | outer {s t : Stack} : (∀ name, s.get? name = t.get? name) → Alike 0 s t
  | scope {n : ℕ} {s t : Stack} (vars : Bindings) : Alike n s t → Alike (n + 1) (.scope vars s) (.scope vars t)

namespace Alike

lemma get?_eq (h : Alike n s t) (name : String) : s.get? name = t.get? name := by
  induction h with
  | outer hview => exact hview name
  | scope vars _ ih => rw [get?, get?, ih]

lemma define (h : Alike n s t) (name : String) (v : Value) : Alike n (s.define name v) (t.define name v) := by
  cases h with
  | outer hview =>
    refine .outer fun m => ?_
    rw [get?_define, get?_define, hview]
  | scope vars h => exact .scope _ h

lemma assign? (h : Alike n s t) (name : String) (v : Value) :
    Option.Rel (Alike n) (s.assign? name v) (t.assign? name v) := by
  induction h with
  | @outer s t hview =>
    have hs := s.isSome_assign? name v
    have ht := t.isSome_assign? name v
    rw [← hview, ← hs] at ht
    cases hs' : s.assign? name v with
    | none =>
      rw [hs', Option.isSome_none, Option.isSome_eq_false_iff, Option.isNone_iff_eq_none] at ht
      rw [ht]
      exact .none
    | some s' =>
      rw [hs', Option.isSome_some, Option.isSome_iff_exists] at ht
      obtain ⟨t', ht'⟩ := ht
      rw [ht']
      refine .some (.outer fun m => ?_)
      rw [get?_of_assign? hs', get?_of_assign? ht', hview]
  | @scope n s t vars h ih =>
    rw [Stack.assign?, Stack.assign?]
    split
    · exact .some (.scope _ h)
    · generalize s.assign? name v = s' at ih ⊢
      generalize t.assign? name v = t' at ih ⊢
      cases ih with
      | none => exact .none
      | some h' => exact .some (.scope vars h')

lemma push (h : Alike n s t) : Alike (n + 1) s.push t.push :=
  .scope _ h

lemma pop (h : Alike (n + 1) s t) : Alike n s.pop t.pop := by
  cases h with
  | scope vars h => exact h

end Alike

end Stack

namespace StackEval

variable {n : ℕ}

lemma read_alike (name : Token) : Agrees (Stack.Alike n) Eq Eq (read name) (read name) := by
  refine ⟨fun s t h => ?_⟩
  have hview := h.get?_eq name.lexeme
  cases hs : s.get? name.lexeme with
  | some v =>
    have hread : read name s = .ok v s := by simp only [read, hs]
    exact ends_of_ok hread ⟨v, t, by simp only [read, ← hview, hs], rfl, h⟩
  | none =>
    have hread : read name s = .error (.runtime (.undefined name)) s := by simp only [read, hs]
    exact ends_of_error hread ⟨_, t, by simp only [read, ← hview, hs], rfl, h⟩

lemma assign_alike (name : Token) (v : Value) : Agrees (Stack.Alike n) Eq Eq (assign name v) (assign name v) := by
  refine ⟨fun s t h => ?_⟩
  have hassign := h.assign? name.lexeme v
  unfold Ends assign
  generalize s.assign? name.lexeme v = s' at hassign ⊢
  generalize t.assign? name.lexeme v = t' at hassign ⊢
  cases hassign with
  | none => exact ⟨_, t, rfl, rfl, h⟩
  | some h' => exact ⟨(), _, rfl, rfl, h'⟩

lemma ofExcept_alike (r : Except Trouble Value) :
    Agrees (Stack.Alike n) Eq Eq (MonadExcept.ofExcept r : StackEval Value) (MonadExcept.ofExcept r) := by
  cases r with
  | ok v => exact .pure rfl
  | error t => exact .throw rfl

end StackEval

lemma Expr.evalOnStack_alike (e : Expr) (n : ℕ) : Agrees (Stack.Alike n) Eq Eq e.evalOnStack e.evalOnStack := by
  induction e with
  | literal v => exact .pure rfl
  | «variable» name => exact StackEval.read_alike name
  | group inner ih => exact ih
  | assign name value ih =>
    refine ih.bind ?_
    rintro v _ rfl
    exact (StackEval.assign_alike name v).bind fun _ _ _ => .pure rfl
  | unary op operand ih =>
    refine ih.bind ?_
    rintro v _ rfl
    exact StackEval.ofExcept_alike _
  | binary left op right ihl ihr =>
    refine ihl.bind ?_
    rintro a _ rfl
    refine ihr.bind ?_
    rintro b _ rfl
    exact StackEval.ofExcept_alike _

variable {δ : Type}

structure StackMachine.Alike (n : ℕ) (p q : StackMachine δ) : Prop where
  stack : Stack.Alike n p.stack q.stack
  sink : p.sink = q.sink

namespace StackExec

variable {n : ℕ}

lemma eval_alike (e : Expr) : Agrees (StackMachine.Alike (δ := δ) n) Eq Eq (eval e) (eval e) := by
  refine ⟨fun p q h => ?_⟩
  have he := (e.evalOnStack_alike n).ends p.stack q.stack h.stack
  cases hr : e.evalOnStack p.stack with
  | ok v s =>
    obtain ⟨_, t, hq, rfl, hs⟩ := he.ok hr
    have hrun : eval e p = .ok v { p with stack := s } := by simp only [eval, hr]
    exact ends_of_ok hrun ⟨v, { q with stack := t }, by simp only [eval, hq], rfl, hs, h.sink⟩
  | error e' s =>
    obtain ⟨_, t, hq, rfl, hs⟩ := he.stop hr
    have hrun : eval e p = .error e' { p with stack := s } := by simp only [eval, hr]
    exact ends_of_error hrun ⟨e', { q with stack := t }, by simp only [eval, hq], rfl, hs, h.sink⟩

lemma define_alike (name : String) (v : Value) :
    Agrees (StackMachine.Alike (δ := δ) n) Eq Eq (define name v) (define name v) :=
  ⟨fun _ _ h => ⟨(), _, rfl, rfl, h.stack.define name v, h.sink⟩⟩

lemma toSink_alike (context : InternalFault.Context) (request : EStateM String (Sink δ) Unit) :
    Agrees (StackMachine.Alike n) Eq Eq (toSink context request) (toSink context request) := by
  refine ⟨?_⟩
  rintro p ⟨stack, _⟩ ⟨hs, rfl⟩
  unfold Ends toSink
  cases request p.sink with
  | ok _ sink => exact ⟨(), _, rfl, rfl, hs, rfl⟩
  | error reason sink => exact ⟨_, _, rfl, rfl, hs, rfl⟩

lemma inScope_alike {body : StackExec δ Unit} (h : Agrees (StackMachine.Alike (n + 1)) Eq Eq body body) :
    Agrees (StackMachine.Alike n) Eq Eq (inScope body) (inScope body) := by
  refine ⟨fun p q hpq => ?_⟩
  have hb := h.ends { p with stack := p.stack.push } { q with stack := q.stack.push } ⟨hpq.stack.push, hpq.sink⟩
  cases hr : body { p with stack := p.stack.push } with
  | ok _ p' =>
    obtain ⟨_, q', hq, -, h'⟩ := hb.ok hr
    have hrun : inScope body p = .ok () { p' with stack := p'.stack.pop } := by simp only [inScope, hr]
    have hrun' : inScope body q = .ok () { q' with stack := q'.stack.pop } := by simp only [inScope, hq]
    exact ends_of_ok hrun ⟨(), _, hrun', rfl, h'.stack.pop, h'.sink⟩
  | error t p' =>
    obtain ⟨_, q', hq, rfl, h'⟩ := hb.stop hr
    have hrun : inScope body p = .error t { p' with stack := p'.stack.pop } := by simp only [inScope, hr]
    have hrun' : inScope body q = .error t { q' with stack := q'.stack.pop } := by simp only [inScope, hq]
    exact ends_of_error hrun ⟨t, _, hrun', rfl, h'.stack.pop, h'.sink⟩

end StackExec

namespace Stmt

variable [Device δ]

mutual

lemma execOnStack_alike : ∀ (s : Stmt) (n : ℕ), Agrees (StackMachine.Alike (δ := δ) n) Eq Eq s.execOnStack s.execOnStack
  | .block body, n => by
    rw [execOnStack]
    exact StackExec.inScope_alike (execAllOnStack_alike body (n + 1))
  | .expression e, n => by
    rw [execOnStack]
    exact (StackExec.eval_alike e).bind fun _ _ _ => .pure rfl
  | .print e, n => by
    rw [execOnStack]
    refine (StackExec.eval_alike e).bind ?_
    rintro v _ rfl
    exact StackExec.toSink_alike _ _
  | .var name none, n => by
    rw [execOnStack]
    exact StackExec.define_alike name.lexeme .nil
  | .var name (some e), n => by
    rw [execOnStack]
    refine (StackExec.eval_alike e).bind ?_
    rintro v _ rfl
    exact StackExec.define_alike name.lexeme v

lemma execAllOnStack_alike : ∀ (body : List Stmt) (n : ℕ),
    Agrees (StackMachine.Alike (δ := δ) n) Eq Eq (execAllOnStack body) (execAllOnStack body)
  | [], n => by
    rw [execAllOnStack]
    exact .pure rfl
  | s :: rest, n => by
    rw [execAllOnStack]
    exact (execOnStack_alike s n).bind fun _ _ _ => execAllOnStack_alike rest n

end

end Stmt

namespace Scopes.Linked

variable {s : Scopes}

lemma get?_define (h : s.Linked) (name : String) (v : Value) (m : String) :
    (s.define name v).get? m = if m = name then some v else s.get? m := by
  rw [(h.define name v).get?_eq, h.stack_define, Stack.get?_define, h.get?_eq]

lemma get?_push (h : s.Linked) (name : String) : s.push.get? name = s.get? name := by
  rw [h.push.get?_eq, h.stack_push, h.get?_eq]
  rfl

end Scopes.Linked

structure Machine.LooksLike (m n : Machine δ) : Prop where
  linked : m.scopes.Linked
  linked_right : n.scopes.Linked
  view : ∀ name, m.scopes.get? name = n.scopes.get? name
  sink : m.sink = n.sink

namespace Machine.LooksLike

variable {m n : Machine δ}

lemma onStack (h : m.LooksLike n) : StackMachine.Alike 0 m.onStack n.onStack := by
  refine ⟨.outer fun name => ?_, h.sink⟩
  have hview := h.view name
  rwa [h.linked.get?_eq, h.linked_right.get?_eq] at hview

lemma of_shows {p q : StackMachine δ} {i j : ℕ} (hm : m.Shows i p) (hpq : StackMachine.Alike 0 p q)
    (hn : n.Shows j q) : m.LooksLike n := by
  obtain ⟨hl, -, rfl⟩ := hm
  obtain ⟨hl', -, rfl⟩ := hn
  refine ⟨hl, hl', fun name => ?_, hpq.sink⟩
  rw [hl.get?_eq, hl'.get?_eq]
  exact hpq.stack.get?_eq name

lemma enterScope (h : m.LooksLike n) : m.LooksLike n.enterScope := by
  refine ⟨h.linked, h.linked_right.push, fun name => ?_, h.sink⟩
  rw [h.view, Machine.scopes_enterScope, h.linked_right.get?_push]

end Machine.LooksLike

lemma Stmt.execAll_looksLike [Device δ] (body : List Stmt) :
    Agrees (Machine.LooksLike (δ := δ)) Eq Eq (execAll body) (execAll body) := by
  refine ⟨fun m n h => ?_⟩
  have hm := execAll_agrees (δ := δ) body m.scopes.current
  have hn := execAll_agrees (δ := δ) body n.scopes.current
  have hstart : Relation.Comp (Relation.Comp (Machine.Shows m.scopes.current) (StackMachine.Alike 0))
      (flip (Machine.Shows n.scopes.current)) m n :=
    ⟨n.onStack, ⟨m.onStack, ⟨h.linked, rfl, rfl⟩, h.onStack⟩, h.linked_right, rfl, rfl⟩
  apply (((hm.trans (execAllOnStack_alike body 0)).trans hn.symm).ends m n hstart).mono
  · rintro _ m' ⟨_, n', hrun, -, _, ⟨_, hm', halike⟩, hn'⟩
    exact ⟨(), n', hrun, rfl, .of_shows hm' halike hn'⟩
  · rintro _ m' ⟨t, n', hrun, ⟨_, ⟨_, rfl, rfl⟩, rfl⟩, _, ⟨_, hm', halike⟩, hn'⟩
    exact ⟨t, n', hrun, rfl, .of_shows hm' halike hn'⟩

namespace Exec

lemma note_looksLike (e : Event) : Agrees (Machine.LooksLike (δ := δ)) Eq Eq (note e) (note e) :=
  ⟨fun _ _ h => ⟨(), _, rfl, rfl, h.linked, h.linked_right, h.view, h.sink⟩⟩

lemma flush_looksLike [Device δ] : Agrees (Machine.LooksLike (δ := δ)) Eq Eq flush flush :=
  toSink_of_agrees (R := Machine.LooksLike) (fun _ _ h => h.sink)
    (fun _ _ _ _ h hs => ⟨h.linked, h.linked_right, h.view, hs⟩) (fun _ => rfl) (.refl _)

lemma inScope_of_looksLike {body : Exec δ Unit} {m n : Machine δ} (hbody : Agrees Machine.LooksLike Eq Eq body body)
    (h : m.LooksLike n) :
    Ends body m (fun _ m' => ∃ n', inScope body n = .ok () n' ∧ m'.sink = n'.sink)
      (fun t m' => ∃ n', inScope body n = .error t n' ∧ m'.sink = n'.sink) := by
  apply (hbody.ends m n.enterScope h.enterScope).mono
  · rintro _ m' ⟨_, n', hn, -, h'⟩
    exact ⟨n'.leaveScope n.scopes.current, by simp only [inScope, hn], h'.sink⟩
  · rintro t m' ⟨_, n', hn, rfl, h'⟩
    exact ⟨n'.leaveScope n.scopes.current, by simp only [inScope, hn], h'.sink⟩

end Exec

variable [Device δ]

lemma interpret_looksLike (statements : List Stmt) :
    Agrees (Machine.LooksLike (δ := δ)) Eq Eq (interpret statements) (interpret statements) :=
  (Exec.note_looksLike _).bind fun _ _ _ =>
    (Stmt.execAll_looksLike statements).bind fun _ _ _ => Exec.flush_looksLike

lemma interpret_block_eq (statements : List Stmt) (m : Machine δ) :
    interpret [.block statements] m = (Exec.inScope (Stmt.execAll statements) >>= fun _ => Exec.flush)
      ((m.note (.interpreting 1)).note (.executing (.block statements))) := by
  rw [interpret, Stmt.execAll, Stmt.exec, Stmt.execAll]
  simp only [bind_assoc, pure_bind]
  rfl

lemma interpret_block (statements : List Stmt) {m : Machine δ} (hm : m.scopes.Linked) :
    Ends (interpret statements) m
      (fun _ m' => ∃ n', interpret [.block statements] m = .ok () n' ∧ m'.sink = n'.sink)
      (fun t m' => ∃ n', interpret [.block statements] m = .error t n' ∧ m'.sink = n'.sink) := by
  have hlike : (m.note (.interpreting statements.length)).LooksLike
      ((m.note (.interpreting 1)).note (.executing (.block statements))) := ⟨hm, hm, fun _ => rfl, rfl⟩
  rw [interpret_block_eq, interpret, ends_bind]
  change Ends _ (m.note _) _ _
  rw [ends_bind]
  apply (Exec.inScope_of_looksLike (Stmt.execAll_looksLike statements) hlike).mono
  · rintro _ m' ⟨n', hn, hsink⟩
    rw [bind_eq_of_ok hn]
    apply ((Exec.toSink_of_agrees (fun _ _ h => h) (fun _ _ _ _ _ hs => hs) (fun _ => rfl)
      (.refl _)).ends m' n' hsink).mono
    · rintro _ m'' ⟨_, n'', hn', -, hsink'⟩
      exact ⟨n'', hn', hsink'⟩
    · rintro t m'' ⟨_, n'', hn', rfl, hsink'⟩
      exact ⟨n'', hn', hsink'⟩
  · rintro t m' ⟨n', hn, hsink⟩
    exact ⟨n', bind_eq_of_error hn, hsink⟩

theorem interpret_sees_view (statements : List Stmt) :
    Agrees (Machine.LooksLike (δ := δ)) Eq Eq (Stmt.execAll statements) (Stmt.execAll statements) ∧
      Agrees (Machine.LooksLike (δ := δ)) Eq Eq (interpret statements) (interpret statements) ∧
      ∀ m : Machine δ, m.scopes.Linked →
        Ends (interpret statements) m
          (fun _ m' => ∃ n', interpret [.block statements] m = .ok () n' ∧ m'.sink = n'.sink)
          (fun t m' => ∃ n', interpret [.block statements] m = .error t n' ∧ m'.sink = n'.sink) :=
  ⟨Stmt.execAll_looksLike statements, interpret_looksLike statements, fun _ => interpret_block statements⟩

def coveredName : List Stmt :=
  -- `{ a = false; var a; print a; } print a; a = -a;`, which stops in the end.
  let a : Token := ⟨.identifier "a", "a", 1⟩
  [.block [.expression (.assign a (.literal (.bool false))), .var a none, .print (.variable a)],
    .print (.variable a),
    .expression (.assign a (.unary ⟨.symbol .minus, "-", 1⟩ (.variable a)))]

namespace Machine

def once : Machine Buffer :=
  { start .unlimited with scopes := Scopes.global.define "a" (.bool true) }

def twice : Machine Buffer :=
  -- The global `a` is out of sight.
  { start .unlimited with scopes := (Scopes.global.define "a" .nil).push.define "a" (.bool true) }

lemma once_looksLike_twice : once.LooksLike twice := by
  have hl := Scopes.linked_global
  have hpush := (hl.define "a" .nil).push
  refine ⟨hl.define "a" _, hpush.define "a" _, fun name => ?_, rfl⟩
  rw [once, twice, hl.get?_define, hpush.get?_define, (hl.define "a" .nil).get?_push, hl.get?_define]
  by_cases hname : name = "a" <;> simp only [hname, if_true, if_false]

end Machine

theorem interpret_sees_view_twice :
    Machine.once.LooksLike Machine.twice ∧
      ∃ t m n n', interpret coveredName .once = .error t m ∧ m.sink.written = "nil\nfalse\n".toUTF8 ∧
        interpret coveredName .twice = .error t n ∧ m.LooksLike n ∧
        interpret [.block coveredName] .once = .error t n' ∧ m.sink = n'.sink := by
  have hlike := Machine.once_looksLike_twice
  obtain ⟨-, hview, hblock⟩ := interpret_sees_view (δ := Buffer) coveredName
  have hrun : ∃ t m, interpret coveredName .once = .error t m ∧ m.sink.written = "nil\nfalse\n".toUTF8 :=
    ⟨_, _, rfl, rfl⟩
  obtain ⟨t, m, hm, hwritten⟩ := hrun
  obtain ⟨_, n, hn, rfl, hmn⟩ := (hview.ends _ _ hlike).stop hm
  obtain ⟨n', hn', hsink⟩ := (hblock _ hlike.linked).stop hm
  exact ⟨hlike, t, m, n, n', hm, hwritten, hn, hmn, hn', hsink⟩

end Lox
