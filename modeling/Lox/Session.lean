import Lox.Machine
import Lox.Parse

/-! A session runs source units one after the other. Variables survive from unit to unit, every fault is reported, and
a unit with a lexical or syntax fault is not run at all. -/

namespace Lox

inductive Diagnostic.Phase where
  | compile | runtime
deriving DecidableEq, Repr

structure Diagnostic where
  phase : Diagnostic.Phase
  line : Nat
  message : String
deriving DecidableEq, Repr

namespace Diagnostic

def ofLexical (f : LexicalFault) : Diagnostic :=
  ⟨.compile, f.line, f.message⟩

def ofSyntax (f : SyntaxFault) : Diagnostic :=
  ⟨.compile, f.line, f.message⟩

def ofRuntime (f : RuntimeFault) : Diagnostic :=
  ⟨.runtime, f.line, f.message⟩

def render (d : Diagnostic) : String :=
  match d.phase with
  | .compile => "[line " ++ d.line.repr ++ "] " ++ d.message
  | .runtime => d.message ++ "\n[line " ++ d.line.repr ++ "]"

end Diagnostic

structure Session (δ : Type) where
  machine : Machine δ
  lexicalFaults : Nat
  syntaxFaults : Nat
  reported : Array Diagnostic

namespace Session

variable {δ : Type}

def start (sink : Sink δ) : Session δ :=
  ⟨.start sink, 0, 0, #[]⟩

def hadError (s : Session δ) : Bool :=
  decide (0 < s.lexicalFaults + s.syntaxFaults)

def note (s : Session δ) (e : Event) : Session δ :=
  { s with machine := s.machine.note e }

abbrev Action (δ α : Type) : Type :=
  EStateM Failure (Session δ) α

def beginUnit : Action δ Unit := fun s =>
  .ok () { s with lexicalFaults := 0, syntaxFaults := 0 }

def scan (source : String) : Action δ (List Token) := fun s =>
  match Lox.scan source with
  | .error fault => .error (.internal fault) (s.note .scanning)
  | .ok scanned =>
    let events := .scanning :: scanned.faults.map .lexicalFault ++
      [.scanned scanned.tokens.length scanned.faults.length]
    .ok scanned.tokens
      { s with
        machine := s.machine.noteAll events
        lexicalFaults := s.lexicalFaults + scanned.faults.length
        reported := s.reported ++ scanned.faults.map Diagnostic.ofLexical }

/-- An invalid assignment target is no stop on the way, so the journal does not tell it. -/
def syntaxEvents (faults : List SyntaxFault) : List Event :=
  (faults.filter (·.kind != .invalidAssignmentTarget)).map .syntaxFault

def parse (tokens : List Token) : Action δ (List Stmt) := fun s =>
  match Parsed.ofTokens tokens with
  | .error failure => .error failure (s.note .parsing)
  | .ok parsed =>
    let events := .parsing :: syntaxEvents parsed.faults ++
      [.parsed parsed.statements.length parsed.faults.length]
    .ok parsed.statements
      { s with
        machine := s.machine.noteAll events
        syntaxFaults := s.syntaxFaults + parsed.faults.length
        reported := s.reported ++ parsed.faults.map Diagnostic.ofSyntax }

def interpret [Device δ] (statements : List Stmt) : Action δ Unit := fun s =>
  match Lox.interpret statements s.machine with
  | .ok _ machine => .ok () { s with machine }
  | .error (.runtime fault) machine =>
    .error (.runtime fault) { s with machine, reported := s.reported.push (.ofRuntime fault) }
  | .error (.internal fault) machine => .error (.internal fault) { s with machine }

def unitFailure? (s : Session δ) : Option Failure :=
  if 0 < s.lexicalFaults then some (.lexical s.lexicalFaults)
  else if 0 < s.syntaxFaults then some (.syntactic s.syntaxFaults)
  else none

def run [Device δ] (source : String) : Action δ Unit := do
  beginUnit
  let tokens ← scan source
  let statements ← parse tokens
  match (← get).unitFailure? with
  | some failure => throw failure
  | none => interpret statements

def runFile [Device δ] (path : String) (contents : Except ReadFault ByteArray) : Action δ Unit :=
  let refuse (cause : ReadFault) : Action δ Unit := throw (.internal (.within (.opening path) (.unreadable cause)))
  match contents with
  | .error cause => refuse cause
  | .ok bytes =>
    match String.fromUTF8? bytes with
    | none => refuse .notUtf8
    | some source => run source

end Session

end Lox
