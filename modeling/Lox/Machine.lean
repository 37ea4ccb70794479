import Lox.Eval
import Lox.Event
import Lox.Sink

namespace Lox

structure Machine (δ : Type) where
  scopes : Scopes
  sink : Sink δ
  journal : Array Event

variable {δ : Type}

namespace Machine

def start (sink : Sink δ) : Machine δ :=
  ⟨.global, sink, #[]⟩

def note (m : Machine δ) (e : Event) : Machine δ :=
  { m with journal := m.journal.push e }

def noteAll (m : Machine δ) (events : List Event) : Machine δ :=
  { m with journal := m.journal ++ events }

def enterScope (m : Machine δ) : Machine δ :=
  { m with scopes := m.scopes.push, journal := m.journal.push (.enteredScope m.scopes.push.depth) }

def leaveScope (m : Machine δ) (previous : Nat) : Machine δ :=
  let scopes := m.scopes.popTo previous
  { m with scopes, journal := m.journal.push (.leftScope scopes.depth) }

@[simp] theorem sink_noteAll (m : Machine δ) (events : List Event) : (m.noteAll events).sink = m.sink := rfl

@[simp] theorem scopes_enterScope (m : Machine δ) : m.enterScope.scopes = m.scopes.push := rfl

@[simp] theorem scopes_leaveScope (m : Machine δ) (i : Nat) : (m.leaveScope i).scopes = m.scopes.popTo i := rfl

end Machine

abbrev Exec (δ α : Type) : Type :=
  EStateM Trouble (Machine δ) α

namespace Exec

def note (e : Event) : Exec δ Unit := fun m =>
  .ok () (m.note e)

def eval (e : Expr) : Exec δ Value := fun m =>
  match e.eval m.scopes with
  | .ok v scopes => .ok v { m with scopes }
  | .error t scopes => .error t { m with scopes }

def define (name : String) (v : Value) : Exec δ Unit := fun m =>
  .ok () { m with scopes := m.scopes.define name v }

def toSink (context : InternalFault.Context) (request : EStateM String (Sink δ) Unit) : Exec δ Unit := fun m =>
  match request m.sink with
  | .ok _ sink => .ok () { m with sink }
  | .error reason sink => .error (.internal (.within context (.refused reason))) { m with sink }

theorem toSink_ok {context : InternalFault.Context} {request : EStateM String (Sink δ) Unit} {m : Machine δ}
    {sink : Sink δ} (h : request m.sink = .ok () sink) : toSink context request m = .ok () { m with sink } := by
  simp only [toSink, h]

theorem toSink_error {context : InternalFault.Context} {request : EStateM String (Sink δ) Unit} {m : Machine δ}
    {reason : String} {sink : Sink δ} (h : request m.sink = .error reason sink) :
    toSink context request m = .error (.internal (.within context (.refused reason))) { m with sink } := by
  simp only [toSink, h]

def printLine [Device δ] (line : String) : Exec δ Unit :=
  toSink .writing (Sink.write (line ++ "\n").toUTF8)

def flush [Device δ] : Exec δ Unit :=
  toSink .flushing Sink.flush

def inScope (body : Exec δ Unit) : Exec δ Unit := fun m =>
  match body m.enterScope with
  | .ok _ m' => .ok () (m'.leaveScope m.scopes.current)
  | .error t m' => .error t (m'.leaveScope m.scopes.current)

end Exec

namespace Stmt

variable [Device δ]

mutual

def exec : Stmt → Exec δ Unit
  | .block body => Exec.inScope (execAll body)
  | .expression e => do let _ ← Exec.eval e
  | .print e => do
    let v ← Exec.eval e
    Exec.printLine v.render
  | .var name init => do
    let v ← match init with
      | some e => Exec.eval e
      | none => pure .nil
    Exec.define name.lexeme v

def execAll : List Stmt → Exec δ Unit
  | [] => return
  | s :: rest => do
    Exec.note (.executing s)
    exec s
    execAll rest

end

end Stmt

def interpret [Device δ] (statements : List Stmt) : Exec δ Unit := do
  Exec.note (.interpreting statements.length)
  Stmt.execAll statements
  Exec.flush

end Lox
