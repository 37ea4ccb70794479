import Lox.Decimal.Shortest

namespace Lox

inductive Magnitude where
  | nan
  | infinite
  | finite (value : Dyadic)
deriving DecidableEq, Repr

def Magnitude.ofFloat (x : Float) : Magnitude :=
  let field : Nat := x.toBits.toNat / Nat.pow 2 52 % Nat.pow 2 11
  let fraction : Nat := x.toBits.toNat % Nat.pow 2 52
  if field = 2047 then
    if fraction = 0 then .infinite else .nan
  else if field = 0 then .finite ⟨fraction, -1074⟩
  else .finite ⟨Nat.pow 2 52 + fraction, field - 1075⟩

def signText (x : Float) : String :=
  if Nat.pow 2 63 ≤ x.toBits.toNat then "-" else ""

namespace Decimal

def digitChars (d : Decimal) : List Char :=
  Nat.toDigits 10 d.digits

/-- The power of ten that the first digit stands for. -/
def leading (d : Decimal) : Int :=
  d.exponent + d.digitChars.length - 1

def split (d : Decimal) : List Char × List Char :=
  let places := (-d.exponent).toNat
  let digits := List.replicate (places + 1 - d.digitChars.length) '0' ++ d.digitChars ++
    List.replicate d.exponent.toNat '0'
  digits.splitAt (digits.length - places)

structure Style where
  integerTail : String
  positional : Int → Bool

namespace Style

def plain : Style :=
  ⟨"", fun _ => true⟩

def marked : Style :=
  ⟨".0", fun e => decide (-4 ≤ e ∧ e < 16)⟩

def positionalText (style : Style) (d : Decimal) : String :=
  match d.split with
  | (whole, []) => String.ofList whole ++ style.integerTail
  | (whole, fraction) => String.ofList whole ++ "." ++ String.ofList fraction

def exponentText (d : Decimal) : String :=
  let mantissa := match d.digitChars with
    | first :: second :: rest => String.ofList (first :: '.' :: second :: rest)
    | digits => String.ofList digits
  mantissa ++ "e" ++ (if d.leading < 0 then "-" else "") ++ String.ofList (Nat.toDigits 10 d.leading.natAbs)

def decimalText (style : Style) (d : Decimal) : String :=
  if style.positional d.leading then style.positionalText d else exponentText d

def text (style : Style) (x : Float) : String :=
  match Magnitude.ofFloat x with
  | .nan => "NaN"
  | .infinite => signText x ++ "inf"
  | .finite v => signText x ++ style.decimalText v.shortest

end Style

end Decimal

end Lox
