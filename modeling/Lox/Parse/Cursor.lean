import Lox.InternalFault
import Lox.Parse.Fault

/-! Parsers read tokens from a cursor that also counts the nesting depth and collects syntax faults. They keep the
cursor when they stop, so that parsing can go on behind a fault. -/

namespace Lox

def maxNesting : Nat :=
  128

structure Cursor where
  rest : List Token
  depth : Nat
  /-- The newest fault first. -/
  faults : List SyntaxFault
deriving DecidableEq, Repr

inductive Stop where
  | fault (f : SyntaxFault)
  | internal (f : InternalFault)
deriving DecidableEq, Repr

abbrev Parser (α : Type) : Type :=
  EStateM Stop Cursor α

namespace Parser

variable {α : Type}

def peek : Parser Token := fun c =>
  match c.rest with
  | [] => .error (.internal .missingEnd) c
  | t :: _ => .ok t c

def advance : Parser Token := fun c =>
  match c.rest with
  | [] => .error (.internal .missingEnd) c
  | t :: rest => .ok t (if t.isEof then c else { c with rest })

def nextIf (p : Token.Kind → Bool) : Parser (Option Token) := fun c =>
  match c.rest with
  | [] => .ok none c
  | t :: rest => if !t.isEof && p t.kind then .ok (some t) { c with rest } else .ok none c

def failHere (kind : SyntaxFault.Kind) : Parser α := do
  let t ← peek
  throw (.fault (.ofToken kind t))

def expect (p : Token.Kind → Bool) (kind : SyntaxFault.Kind) : Parser Token := do
  match ← nextIf p with
  | some t => return t
  | none => failHere kind

def expectSymbol (s : Symbol) (kind : SyntaxFault.Kind) : Parser Unit := do
  let _ ← expect (· == .symbol s) kind

def ofExcept (r : Except InternalFault α) : Parser α := fun c =>
  match r with
  | .ok a => .ok a c
  | .error f => .error (.internal f) c

def record (f : SyntaxFault) : Parser Unit := fun c =>
  .ok () { c with faults := f :: c.faults }

def depth : Parser Nat := fun c =>
  .ok c.depth c

def setDepth (n : Nat) : Parser Unit := fun c =>
  .ok () { c with depth := n }

def enter : Parser Unit := do
  let n ← depth
  if maxNesting ≤ n then failHere .tooMuchNesting else setDepth (n + 1)

def nested (p : Parser α) : Parser α := do
  enter
  fun c =>
    match p c with
    | .ok a c => .ok a { c with depth := c.depth - 1 }
    | .error e c => .error e { c with depth := c.depth - 1 }

def bracesBehind (braces : Nat) : Token.Kind → Nat
  | .symbol .leftBrace => braces + 1
  | .symbol .rightBrace => braces - 1
  | _ => braces

/-- The tokens from a statement boundary on: behind a `;`, before a word that starts a statement, or, in a block,
before the `}` that ends it. The count is of skipped `{` that are still open. `none` if the tokens run out. -/
def boundary (inBlock : Bool) : Nat → List Token → Option (List Token)
  | _, [] => none
  | braces, t :: rest =>
    if t.isEof then some (t :: rest)
    else if inBlock && braces == 0 && t.kind == .symbol .rightBrace then some (t :: rest)
    else if braces == 0 && t.kind == .symbol .semicolon then some rest
    else if bracesBehind braces t.kind == 0 && rest.head?.any (·.kind.startsStatement) then some rest
    else boundary inBlock (bracesBehind braces t.kind) rest

def synchronize (inBlock : Bool) : Parser Unit := fun c =>
  match boundary inBlock 0 c.rest with
  | some rest => .ok () { c with rest }
  | none => .error (.internal .missingEnd) { c with rest := [] }

end Parser

end Lox
