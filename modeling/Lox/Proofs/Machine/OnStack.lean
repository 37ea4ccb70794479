import Lox.Machine
import Lox.Proofs.Agreement
import Lox.Proofs.Scopes.Stack

namespace Lox

abbrev StackEval (α : Type) : Type :=
  EStateM Trouble Stack α

namespace StackEval

def read (name : Token) : StackEval Value := fun s =>
  match s.get? name.lexeme with
  | some v => .ok v s
  | none => .error (.runtime (.undefined name)) s

def assign (name : Token) (v : Value) : StackEval Unit := fun s =>
  match s.assign? name.lexeme v with
  | some s => .ok () s
  | none => .error (.runtime (.undefined name)) s

end StackEval

def Expr.evalOnStack : Expr → StackEval Value
  | .literal v => return v
  | .group inner => inner.evalOnStack
  | .variable name => StackEval.read name
  | .assign name value => do
    let v ← value.evalOnStack
    StackEval.assign name v
    return v
  | .unary op operand => do
    let v ← operand.evalOnStack
    MonadExcept.ofExcept (applyUnary op v)
  | .binary left op right => do
    let a ← left.evalOnStack
    let b ← right.evalOnStack
    MonadExcept.ofExcept (applyBinary op a b)

structure StackMachine (δ : Type) where
  stack : Stack
  sink : Sink δ

abbrev StackExec (δ α : Type) : Type :=
  EStateM Trouble (StackMachine δ) α

variable {δ : Type}

namespace StackExec

def eval (e : Expr) : StackExec δ Value := fun m =>
  match e.evalOnStack m.stack with
  | .ok v stack => .ok v { m with stack }
  | .error t stack => .error t { m with stack }

def define (name : String) (v : Value) : StackExec δ Unit :=
  modify fun m => { m with stack := m.stack.define name v }

def toSink (context : InternalFault.Context) (request : EStateM String (Sink δ) Unit) : StackExec δ Unit := fun m =>
  match request m.sink with
  | .ok _ sink => .ok () { m with sink }
  | .error reason sink => .error (.internal (.within context (.refused reason))) { m with sink }

def printLine [Device δ] (line : String) : StackExec δ Unit :=
  toSink .writing (Sink.write (line ++ "\n").toUTF8)

def flush [Device δ] : StackExec δ Unit :=
  toSink .flushing Sink.flush

def inScope (body : StackExec δ Unit) : StackExec δ Unit := fun m =>
  match body { m with stack := m.stack.push } with
  | .ok _ m' => .ok () { m' with stack := m'.stack.pop }
  | .error t m' => .error t { m' with stack := m'.stack.pop }

end StackExec

namespace Stmt

variable [Device δ]

mutual

def execOnStack : Stmt → StackExec δ Unit
  | .block body => StackExec.inScope (execAllOnStack body)
  | .expression e => do let _ ← StackExec.eval e
  | .print e => do
    let v ← StackExec.eval e
    StackExec.printLine v.render
  | .var name none => StackExec.define name.lexeme .nil
  | .var name (some e) => do
    let v ← StackExec.eval e
    StackExec.define name.lexeme v

def execAllOnStack : List Stmt → StackExec δ Unit
  | [] => return
  | s :: rest => do
    execOnStack s
    execAllOnStack rest

end

end Stmt

def interpretOnStack [Device δ] (statements : List Stmt) : StackExec δ Unit := do
  Stmt.execAllOnStack statements
  StackExec.flush

structure Scopes.Shows (n : ℕ) (s : Scopes) (stack : Stack) : Prop where
  linked : s.Linked
  blocks : s.current = n
  same : s.stack = stack

namespace Eval

variable {n : ℕ}

lemma read_agrees (name : Token) : Agrees (Scopes.Shows n) Eq Eq (read name) (StackEval.read name) := by
  refine ⟨?_⟩
  rintro s _ ⟨hl, hn, rfl⟩
  have hg := hl.get?_eq name.lexeme
  cases hs : s.stack.get? name.lexeme with
  | some v =>
    have hread : read name s = .ok v s := by simp only [read, hg, hs]
    exact ends_of_ok hread ⟨v, s.stack, by simp only [StackEval.read, hs], rfl, hl, hn, rfl⟩
  | none =>
    have hread : read name s = .error (.runtime (.undefined name)) s := by simp only [read, hg, hs]
    exact ends_of_error hread ⟨_, s.stack, by simp only [StackEval.read, hs], rfl, hl, hn, rfl⟩

lemma assign_agrees (name : Token) (v : Value) :
    Agrees (Scopes.Shows n) Eq Eq (assign name v) (StackEval.assign name v) := by
  refine ⟨?_⟩
  rintro s _ ⟨hl, hn, rfl⟩
  have ha := hl.assign?_eq name.lexeme v
  cases hs : s.assign? name.lexeme v with
  | some t =>
    obtain ⟨ht, hc⟩ := hl.assign? hs
    rw [hs, Option.map_some] at ha
    have hassign : assign name v s = .ok () t := by simp only [assign, hs]
    exact ends_of_ok hassign ⟨(), t.stack, by simp only [StackEval.assign, ← ha], rfl, ht, hc.trans hn, rfl⟩
  | none =>
    rw [hs, Option.map_none] at ha
    have hassign : assign name v s = .error (.runtime (.undefined name)) s := by simp only [assign, hs]
    exact ends_of_error hassign ⟨_, s.stack, by simp only [StackEval.assign, ← ha], rfl, hl, hn, rfl⟩

lemma ofExcept_agrees {R : Scopes → Stack → Prop} (r : Except Trouble Value) :
    Agrees R Eq Eq (ofExcept r) (MonadExcept.ofExcept r) := by
  cases r with
  | ok v => exact .pure rfl
  | error t => exact .throw rfl

end Eval

lemma Expr.eval_agrees (e : Expr) (n : ℕ) : Agrees (Scopes.Shows n) Eq Eq e.eval e.evalOnStack := by
  induction e with
  | literal v => exact .pure rfl
  | «variable» name => exact Eval.read_agrees name
  | group inner ih => exact ih
  | assign name value ih =>
    rw [eval, evalOnStack]
    refine ih.bind ?_
    rintro v _ rfl
    exact (Eval.assign_agrees name v).bind fun _ _ _ => .pure rfl
  | unary op operand ih =>
    rw [eval, evalOnStack]
    refine ih.bind ?_
    rintro v _ rfl
    exact Eval.ofExcept_agrees _
  | binary left op right ihl ihr =>
    rw [eval, evalOnStack]
    refine ihl.bind ?_
    rintro a _ rfl
    refine ihr.bind ?_
    rintro b _ rfl
    exact Eval.ofExcept_agrees _

def Machine.onStack (m : Machine δ) : StackMachine δ :=
  ⟨m.scopes.stack, m.sink⟩

structure Machine.Shows (n : ℕ) (m : Machine δ) (p : StackMachine δ) : Prop where
  linked : m.scopes.Linked
  blocks : m.scopes.current = n
  same : m.onStack = p

namespace Exec

variable {n : ℕ}

lemma eval_agrees (e : Expr) : Agrees (Machine.Shows (δ := δ) n) Eq Eq (eval e) (StackExec.eval e) := by
  refine ⟨?_⟩
  rintro m _ ⟨hl, hn, rfl⟩
  have he := (e.eval_agrees n).ends m.scopes m.scopes.stack ⟨hl, hn, rfl⟩
  simp only [Ends, eval]
  cases hr : e.eval m.scopes with
  | ok v s =>
    obtain ⟨_, _, hq, rfl, hl', hn', rfl⟩ := he.ok hr
    exact ⟨v, ⟨s.stack, m.sink⟩, by simp only [StackExec.eval, Machine.onStack, hq], rfl, hl', hn', rfl⟩
  | error t s =>
    obtain ⟨_, _, hq, rfl, hl', hn', rfl⟩ := he.stop hr
    exact ⟨t, ⟨s.stack, m.sink⟩, by simp only [StackExec.eval, Machine.onStack, hq], rfl, hl', hn', rfl⟩

lemma define_agrees (name : String) (v : Value) :
    Agrees (Machine.Shows (δ := δ) n) Eq Eq (define name v) (StackExec.define name v) := by
  refine ⟨?_⟩
  rintro m _ ⟨hl, hn, rfl⟩
  refine ⟨(), _, rfl, rfl, hl.define name v, hn, ?_⟩
  simp only [Machine.onStack, hl.stack_define]

lemma toSink_agrees (context : InternalFault.Context) (request : EStateM String (Sink δ) Unit) :
    Agrees (Machine.Shows n) Eq Eq (toSink context request) (StackExec.toSink context request) := by
  refine ⟨?_⟩
  rintro m _ ⟨hl, hn, rfl⟩
  cases hr : request m.sink with
  | ok _ sink =>
    exact ends_of_ok (toSink_ok hr) ⟨(), _, by simp only [StackExec.toSink, Machine.onStack, hr], rfl, hl, hn, rfl⟩
  | error reason sink =>
    exact ends_of_error (toSink_error hr)
      ⟨_, _, by simp only [StackExec.toSink, Machine.onStack, hr], rfl, hl, hn, rfl⟩

lemma note_bind_agrees {e : Event} {f : Unit → Exec δ Unit} {q : StackExec δ Unit}
    (h : Agrees (Machine.Shows n) Eq Eq (f ()) q) : Agrees (Machine.Shows n) Eq Eq (note e >>= f) q := by
  refine ⟨?_⟩
  rintro m p ⟨hl, hn, hs⟩
  exact h.ends (m.note e) p ⟨hl, hn, hs⟩

lemma leaveScope_shows {m : Machine δ} {p : StackMachine δ} (h : m.Shows (n + 1) p) :
    (m.leaveScope n).Shows n { p with stack := p.stack.pop } := by
  obtain ⟨hl, hn, rfl⟩ := h
  exact ⟨hl.popTo hn, rfl, congrArg (StackMachine.mk · m.sink) (Scopes.Linked.stack_popTo hn)⟩

lemma inScope_agrees {body : Exec δ Unit} {body' : StackExec δ Unit}
    (h : Agrees (Machine.Shows (n + 1)) Eq Eq body body') :
    Agrees (Machine.Shows n) Eq Eq (inScope body) (StackExec.inScope body') := by
  refine ⟨?_⟩
  rintro m _ ⟨hl, rfl, rfl⟩
  have hin : m.enterScope.Shows (m.scopes.current + 1) ⟨m.scopes.stack.push, m.sink⟩ :=
    ⟨hl.push, hl.current_push, congrArg (StackMachine.mk · m.sink) hl.stack_push⟩
  have hb := h.ends _ _ hin
  cases hr : body m.enterScope with
  | ok _ m' =>
    obtain ⟨_, p, hq, -, hs⟩ := hb.ok hr
    have hrun : inScope body m = .ok () (m'.leaveScope m.scopes.current) := by simp only [inScope, hr]
    exact ends_of_ok hrun ⟨(), _, by simp only [StackExec.inScope, Machine.onStack, hq], rfl, leaveScope_shows hs⟩
  | error t m' =>
    obtain ⟨_, p, hq, rfl, hs⟩ := hb.stop hr
    have hrun : inScope body m = .error t (m'.leaveScope m.scopes.current) := by simp only [inScope, hr]
    exact ends_of_error hrun ⟨t, _, by simp only [StackExec.inScope, Machine.onStack, hq], rfl, leaveScope_shows hs⟩

end Exec

namespace Stmt

variable [Device δ]

mutual

lemma exec_agrees : ∀ (s : Stmt) (n : ℕ), Agrees (Machine.Shows (δ := δ) n) Eq Eq s.exec s.execOnStack
  | .block body, n => by
    rw [exec, execOnStack]
    exact Exec.inScope_agrees (execAll_agrees body (n + 1))
  | .expression e, n => by
    rw [exec, execOnStack]
    exact (Exec.eval_agrees e).bind fun _ _ _ => .pure rfl
  | .print e, n => by
    rw [exec, execOnStack]
    refine (Exec.eval_agrees e).bind ?_
    rintro v _ rfl
    exact Exec.toSink_agrees _ _
  | .var name none, n => by
    rw [exec, execOnStack]
    exact Exec.define_agrees name.lexeme .nil
  | .var name (some e), n => by
    rw [exec, execOnStack]
    refine (Exec.eval_agrees e).bind ?_
    rintro v _ rfl
    exact Exec.define_agrees name.lexeme v

lemma execAll_agrees : ∀ (body : List Stmt) (n : ℕ),
    Agrees (Machine.Shows (δ := δ) n) Eq Eq (execAll body) (execAllOnStack body)
  | [], n => by
    rw [execAll, execAllOnStack]
    exact .pure rfl
  | s :: rest, n => by
    rw [execAll, execAllOnStack]
    exact Exec.note_bind_agrees ((exec_agrees s n).bind fun _ _ _ => execAll_agrees rest n)

end

end Stmt

lemma interpret_agrees [Device δ] (statements : List Stmt) (n : ℕ) :
    Agrees (Machine.Shows (δ := δ) n) Eq Eq (interpret statements) (interpretOnStack statements) :=
  Exec.note_bind_agrees ((Stmt.execAll_agrees statements n).bind fun _ _ _ => Exec.toSink_agrees _ _)

end Lox
