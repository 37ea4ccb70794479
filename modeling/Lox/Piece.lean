import Lox.Decimal.Literal
import Lox.InternalFault
import Lox.Text.Numeric

/-! The pieces that a source is cut into: tokens and layout, characters that fit nowhere, and a string that no
quote closes. Every character belongs to exactly one piece. -/

namespace Lox

inductive Piece where
  | token (kind : Token.Kind) (text : List Char)
  | stray (c : Char)
  | unclosed (text : List Char)
  | broken (text : List Char) (fault : InternalFault)
deriving DecidableEq, Repr

namespace Piece

def isSpace (c : Char) : Bool :=
  c == ' ' || c == '\r' || c == '\t'

def symbol (s : Symbol) (c : Char) (rest : List Char) : Piece × List Char :=
  match s.withEqual?, rest with
  | some t, '=' :: rest => (.token (.symbol t) [c, '='], rest)
  | _, rest => (.token (.symbol s) [c], rest)

def comment (rest : List Char) : Piece × List Char :=
  (.token .comment ('/' :: rest.takeWhile (· != '\n')), rest.dropWhile (· != '\n'))

def string (rest : List Char) : Piece × List Char :=
  let inner := rest.takeWhile (· != '"')
  match rest.dropWhile (· != '"') with
  | [] => (.unclosed ('"' :: inner), [])
  | quote :: rest => (.token (.string (String.ofList inner)) ('"' :: inner ++ [quote]), rest)

def numeral (c : Char) (rest : List Char) : List Char × List Char :=
  -- A point belongs to the number only before a digit.
  let whole := c :: rest.takeWhile Char.isDigit
  match rest.dropWhile Char.isDigit with
  | '.' :: d :: rest =>
    if d.isDigit then (whole ++ '.' :: d :: rest.takeWhile Char.isDigit, rest.dropWhile Char.isDigit)
    else (whole, '.' :: d :: rest)
  | rest => (whole, rest)

def number (c : Char) (rest : List Char) : Piece × List Char :=
  let (text, rest) := numeral c rest
  match Decimal.read? text with
  | some x => (.token (.number x) text, rest)
  | none => (.broken text (.within (.numeral (String.ofList text)) .invalidNumeral), rest)

def word (c : Char) (rest : List Char) : Piece × List Char :=
  let text := c :: rest.takeWhile Text.isAlphanumeric
  (.token (Token.Kind.ofWord (String.ofList text)) text, rest.dropWhile Text.isAlphanumeric)

def first (c : Char) (rest : List Char) : Piece × List Char :=
  if c = '\n' then (.token .newline [c], rest)
  else if isSpace c then (.token .blank [c], rest)
  else if c = '/' ∧ rest.head? = some '/' then comment rest
  else if c = '"' then string rest
  else
    match Symbol.ofChar? c with
    | some s => symbol s c rest
    | none =>
      if c.isDigit then number c rest
      else if Text.isAlphabetic c then word c rest
      else (.stray c, rest)

def next : List Char → Piece × List Char
  | [] => (.broken [] .unexpectedEnd, [])
  | c :: rest => first c rest

def advance (line : Nat) : Piece → Nat
  -- No other piece holds a newline.
  | .token .newline _ => line + 1
  | .token (.string _) text | .unclosed text => text.foldl (fun line c => if c = '\n' then line + 1 else line) line
  | _ => line

end Piece

end Lox
