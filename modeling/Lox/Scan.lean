import Lox.Piece

namespace Lox

inductive LexicalFault.Kind where
  | unexpectedCharacter (c : Char)
  | unterminatedString
deriving DecidableEq, Repr

structure LexicalFault where
  kind : LexicalFault.Kind
  line : Nat
deriving DecidableEq, Repr

def LexicalFault.Kind.message : LexicalFault.Kind → String
  | .unexpectedCharacter c => "Unexpected character '" ++ c.toString ++ "'."
  | .unterminatedString => "Unterminated string."

def LexicalFault.message (f : LexicalFault) : String :=
  "Error: " ++ f.kind.message

structure Placed where
  piece : Piece
  line : Nat
deriving DecidableEq, Repr

namespace Placed

def token? (p : Placed) : Option Token :=
  match p.piece with
  | .token kind text => if kind.isLayout then none else some ⟨kind, String.ofList text, p.line⟩
  | _ => none

def fault? (p : Placed) : Option LexicalFault :=
  match p.piece with
  | .stray c => some ⟨.unexpectedCharacter c, p.line⟩
  | .unclosed _ => some ⟨.unterminatedString, p.line⟩
  | _ => none

/-- Cuts at most `n` pieces off a source, with the line counter at `line`, and puts them, in reverse, before `done`.
Also gives the line counter at the end. -/
def allOnto (done : List Placed) (line : Nat) : Nat → List Char → Except InternalFault (List Placed × Nat)
  | 0, _ => .ok (done, line)
  | n + 1, source =>
    if source.isEmpty then .ok (done, line)
    else
      match Piece.next source with
      | (.broken _ fault, _) => .error fault
      | (piece, rest) => allOnto (⟨piece, piece.advance line⟩ :: done) (piece.advance line) n rest

end Placed

structure Scan where
  tokens : List Token
  faults : List LexicalFault
deriving DecidableEq, Repr

/-- Scans a source, the first line being line 1. The tokens end with the end mark. A piece has at least one character,
so there are no more pieces than characters. -/
def scan (source : String) : Except InternalFault Scan := do
  let (placed, line) ← Placed.allOnto [] 1 source.toList.length source.toList
  return { tokens := placed.reverse.filterMap Placed.token? ++ [Token.endAt line]
           faults := placed.reverse.filterMap Placed.fault? }

end Lox
