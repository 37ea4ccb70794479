namespace Lox.Decimal

/-- The number nearest to the decimal with these digits before and after the point, of two equally near ones that
with an even mantissa. -/
def ofDigits (whole fraction : List Char) : Float :=
  Float.ofScientific (Nat.ofDigitChars 10 (whole ++ fraction) 0) true fraction.length

def read? (text : List Char) : Option Float :=
  let whole := text.takeWhile Char.isDigit
  match text.dropWhile Char.isDigit with
  | [] => if whole.isEmpty then none else some (ofDigits whole [])
  | '.' :: fraction =>
    if fraction.all Char.isDigit && !(whole.isEmpty && fraction.isEmpty) then some (ofDigits whole fraction) else none
  | _ => none

end Lox.Decimal
