/-! The shortest decimal of a binary floating-point number. A number `m * 2 ^ q` owns the decimals nearer to it
than to its neighbours (with a tie if `m` is even); of those with the fewest digits the nearest is taken. -/

namespace Lox

structure Dyadic where
  mantissa : Nat
  exponent : Int
deriving DecidableEq, Repr

structure Decimal where
  digits : Nat
  exponent : Int
deriving DecidableEq, Repr

namespace Dyadic

/-- Quarters of a unit in the last place from `v` to the midpoint below it. The neighbour below the least
mantissa of a binade is only half a unit away. -/
def gapBelow (v : Dyadic) : Nat :=
  if v.mantissa = Nat.pow 2 52 ∧ -1074 < v.exponent then 1 else 2

def scaled (v : Dyadic) (quarters : Nat) (t : Int) : Nat :=
  quarters * Nat.pow 2 (v.exponent - 2).toNat * Nat.pow 10 (-t).toNat

def owns (v : Dyadic) (d : Decimal) : Bool :=
  let low := v.scaled (4 * v.mantissa - v.gapBelow) d.exponent
  let high := v.scaled (4 * v.mantissa + 2) d.exponent
  let point := d.digits * Nat.pow 10 d.exponent.toNat * Nat.pow 2 (2 - v.exponent).toNat
  if v.mantissa % 2 = 0 then decide (low ≤ point ∧ point ≤ high) else decide (low < point ∧ point < high)

def exact (v : Dyadic) : Decimal :=
  ⟨v.mantissa * Nat.pow 2 v.exponent.toNat * Nat.pow 5 (-v.exponent).toNat, min v.exponent 0⟩

/-- The neighbour of `v` among the multiples of `10 ^ t` that `v` owns: the nearer one if it owns both, the upper
one if they are equally near. -/
def onGrid (v : Dyadic) (t : Int) : Option Decimal :=
  let num := v.mantissa * Nat.pow 2 v.exponent.toNat * Nat.pow 10 (-t).toNat
  let den := Nat.pow 10 t.toNat * Nat.pow 2 (-v.exponent).toNat
  let down : Decimal := ⟨num / den, t⟩
  let up : Decimal := ⟨num / den + 1, t⟩
  (if 2 * (num % den) < den then [down, up] else [up, down]).find? v.owns

def shortestWithin (v : Dyadic) : Nat → Decimal
  | 0 => v.exact
  | k + 1 => (v.onGrid (v.exact.exponent + (k + 1))).getD (v.shortestWithin k)

/-- An exponent of ten at or above the number, as `log 2 / log 10` is just below `0.30103`. -/
def ceiling (v : Dyadic) : Int :=
  (v.mantissa.log2 + 1 + v.exponent) * 30103 / 100000 + 1

def shortest (v : Dyadic) : Decimal :=
  if v.mantissa = 0 then ⟨0, 0⟩ else v.shortestWithin (v.ceiling - v.exact.exponent).toNat

theorem onGrid_owned {v : Dyadic} {t : Int} {d : Decimal} (h : v.onGrid t = some d) : v.owns d = true := by
  simp only [onGrid] at h
  exact List.find?_some h

end Dyadic

end Lox
