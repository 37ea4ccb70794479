import Lox.Decimal.Shortest
import Mathlib.Algebra.Order.Field.Power
import Mathlib.Algebra.Order.Field.Rat
import Mathlib.Tactic.Linarith
import Mathlib.Tactic.Positivity
import Mathlib.Tactic.Ring

/-! The decimals that a floating-point number owns, as an interval of rationals. The intervals of two numbers do not
meet, so a number is known from its shortest decimal. -/

namespace Lox

lemma zpow_mul_pow_toNat_neg {b : ℚ} (hb : b ≠ 0) (z : ℤ) : b ^ z * b ^ (-z).toNat = b ^ z.toNat := by
  rw [← zpow_natCast, ← zpow_natCast, ← zpow_add₀ hb]
  congr 1
  omega

def Decimal.value (d : Decimal) : ℚ :=
  d.digits * 10 ^ d.exponent

namespace Dyadic

variable {v w : Dyadic}

def value (v : Dyadic) : ℚ :=
  v.mantissa * 2 ^ v.exponent

def quarters (v : Dyadic) (n : ℕ) : ℚ :=
  n * 2 ^ (v.exponent - 2)

def low (v : Dyadic) : ℚ :=
  v.quarters (4 * v.mantissa - v.gapBelow)

def high (v : Dyadic) : ℚ :=
  v.quarters (4 * v.mantissa + 2)

/-- The interval around the number, with its ends if the mantissa is even. -/
def Near (v : Dyadic) (x : ℚ) : Prop :=
  if v.mantissa % 2 = 0 then v.low ≤ x ∧ x ≤ v.high else v.low < x ∧ x < v.high

lemma quarters_value (v : Dyadic) : v.quarters (4 * v.mantissa) = v.value := by
  have hfour : (2 : ℚ) ^ v.exponent = 2 ^ (v.exponent - 2) * 2 ^ (2 : ℤ) := by
    rw [← zpow_add₀ (by norm_num), sub_add_cancel]
  rw [quarters, value, hfour]
  push_cast
  ring

lemma quarters_strictMono (v : Dyadic) : StrictMono v.quarters := by
  intro m n h
  have hcast : (m : ℚ) < n := by exact_mod_cast h
  exact mul_lt_mul_of_pos_right hcast (by positivity)

lemma quarters_shift (h : v.exponent ≤ w.exponent) (n : ℕ) :
    w.quarters n = v.quarters (n * 2 ^ (w.exponent - v.exponent).toNat) := by
  have htwo : (2 : ℚ) ^ (w.exponent - 2) = 2 ^ (w.exponent - v.exponent).toNat * 2 ^ (v.exponent - 2) := by
    rw [← zpow_natCast, ← zpow_add₀ (by norm_num)]
    congr 1
    omega
  rw [quarters, quarters, htwo]
  push_cast
  ring

section Scale

variable (v) (t : ℤ)

def scale : ℚ :=
  2 ^ (2 - v.exponent).toNat * 10 ^ (-t).toNat

lemma scale_pos : 0 < v.scale t := by
  rw [scale]
  positivity

lemma scaled_eq (n : ℕ) : (v.scaled n t : ℚ) = v.quarters n * v.scale t := by
  have htwo := zpow_mul_pow_toNat_neg (b := 2) (by norm_num) (v.exponent - 2)
  rw [neg_sub] at htwo
  simp only [scaled, quarters, scale, Nat.pow_eq, Nat.cast_mul, Nat.cast_pow, Nat.cast_ofNat, ← htwo]
  ring

lemma point_eq (d : Decimal) : ((d.digits * Nat.pow 10 d.exponent.toNat * Nat.pow 2 (2 - v.exponent).toNat : ℕ) : ℚ) =
    d.value * v.scale d.exponent := by
  have hten := zpow_mul_pow_toNat_neg (b := 10) (by norm_num) d.exponent
  simp only [Decimal.value, scale, Nat.pow_eq, Nat.cast_mul, Nat.cast_pow, Nat.cast_ofNat, ← hten]
  ring

end Scale

lemma owns_iff {d : Decimal} : v.owns d = true ↔ v.Near d.value := by
  have hscale := v.scale_pos d.exponent
  simp only [owns, Near, low, high]
  split
  · rw [decide_eq_true_iff, ← Nat.cast_le (α := ℚ), ← Nat.cast_le (α := ℚ), scaled_eq, scaled_eq, point_eq,
      mul_le_mul_iff_of_pos_right hscale, mul_le_mul_iff_of_pos_right hscale]
  · rw [decide_eq_true_iff, ← Nat.cast_lt (α := ℚ), ← Nat.cast_lt (α := ℚ), scaled_eq, scaled_eq, point_eq,
      mul_lt_mul_iff_of_pos_right hscale, mul_lt_mul_iff_of_pos_right hscale]

lemma gapBelow_cases (v : Dyadic) :
    v.gapBelow = 1 ∧ v.mantissa = 2 ^ 52 ∨ v.gapBelow = 2 ∧ ¬(v.mantissa = 2 ^ 52 ∧ -1074 < v.exponent) := by
  rw [gapBelow]
  split
  case isTrue h => exact .inl ⟨rfl, h.1⟩
  case isFalse h => exact .inr ⟨rfl, h⟩

lemma near_value (v : Dyadic) : v.Near v.value := by
  have hgap := v.gapBelow_cases
  rw [Near, low, high, ← quarters_value, v.quarters_strictMono.le_iff_le, v.quarters_strictMono.le_iff_le,
    v.quarters_strictMono.lt_iff_lt, v.quarters_strictMono.lt_iff_lt]
  split <;> omega

lemma exact_value (v : Dyadic) : v.exact.value = v.value := by
  have htwo := zpow_mul_pow_toNat_neg (b := 2) (by norm_num) v.exponent
  have hten : (10 : ℚ) ^ min v.exponent 0 * 10 ^ (-v.exponent).toNat = 1 := by
    rw [← zpow_natCast, ← zpow_add₀ (by norm_num)]
    have h : min v.exponent 0 + ((-v.exponent).toNat : ℤ) = 0 := by omega
    rw [h, zpow_zero]
  have hfive : (10 : ℚ) ^ (-v.exponent).toNat = 2 ^ (-v.exponent).toNat * 5 ^ (-v.exponent).toNat := by
    rw [← mul_pow]
    norm_num
  rw [hfive] at hten
  simp only [exact, Decimal.value, value, Nat.pow_eq, Nat.cast_mul, Nat.cast_pow, Nat.cast_ofNat, ← htwo]
  calc
    _ = v.mantissa * (2 : ℚ) ^ v.exponent *
        (10 ^ min v.exponent 0 * (2 ^ (-v.exponent).toNat * 5 ^ (-v.exponent).toNat)) := by ring
    _ = v.mantissa * (2 : ℚ) ^ v.exponent := by rw [hten, mul_one]

lemma near_shortestWithin (v : Dyadic) (k : ℕ) : v.Near (v.shortestWithin k).value := by
  induction k with
  | zero =>
    rw [shortestWithin, exact_value]
    exact v.near_value
  | succ k ih =>
    rw [shortestWithin]
    cases hd : v.onGrid (v.exact.exponent + (k + 1)) with
    | none => exact ih
    | some d => exact owns_iff.mp (onGrid_owned hd)

lemma near_shortest (v : Dyadic) : v.Near v.shortest.value := by
  rw [shortest]
  split
  case isTrue hm =>
    have hzero : v.value = 0 := by simp [value, hm]
    simpa [Decimal.value, hzero] using v.near_value
  case isFalse => exact v.near_shortestWithin _

structure Canonical (v : Dyadic) : Prop where
  mantissa_lt : v.mantissa < 2 ^ 53
  least_le : -1074 ≤ v.exponent
  full : v.exponent ≠ -1074 → 2 ^ 52 ≤ v.mantissa

def Below (v w : Dyadic) : Prop :=
  v.exponent < w.exponent ∨ v.exponent = w.exponent ∧ v.mantissa < w.mantissa

lemma below_or_eq_or_below (v w : Dyadic) : v.Below w ∨ v = w ∨ w.Below v := by
  obtain ⟨m, e⟩ := v
  obtain ⟨n, f⟩ := w
  simp only [Below, mk.injEq]
  omega

lemma Below.quarters_le (h : v.Below w) (hv : v.Canonical) (hw : w.Canonical) :
    4 * v.mantissa + 2 ≤ (4 * w.mantissa - w.gapBelow) * 2 ^ (w.exponent - v.exponent).toNat ∧
      (v.mantissa % 2 = 0 → w.mantissa % 2 = 0 →
        4 * v.mantissa + 2 < (4 * w.mantissa - w.gapBelow) * 2 ^ (w.exponent - v.exponent).toNat) := by
  have hv53 := hv.mantissa_lt
  have hgap := w.gapBelow_cases
  obtain hlt | ⟨heq, hm⟩ := h
  · -- only the greatest mantissa, which is odd, reaches the next binade
    have hleast := hv.least_le
    have hfull := hw.full (by omega)
    have hpow : 2 ^ 1 ≤ 2 ^ (w.exponent - v.exponent).toNat := Nat.pow_le_pow_right (by decide) (by omega)
    have hmul := Nat.mul_le_mul_left (4 * w.mantissa - w.gapBelow) hpow
    omega
  · rw [heq, sub_self, Int.toNat_zero, pow_zero, mul_one]
    omega

lemma Below.not_near (h : v.Below w) (hv : v.Canonical) (hw : w.Canonical) {x : ℚ} (hx : v.Near x) : ¬w.Near x := by
  intro hy
  have hexponent : v.exponent ≤ w.exponent := by
    rw [Below] at h
    omega
  obtain ⟨hle, hlt⟩ := h.quarters_le hv hw
  rw [← v.quarters_strictMono.le_iff_le, ← quarters_shift hexponent] at hle
  rw [← v.quarters_strictMono.lt_iff_lt, ← quarters_shift hexponent] at hlt
  simp only [Near, low, high] at hx hy
  split_ifs at hx hy with hveven hweven
  · linarith [hlt hveven hweven]
  all_goals linarith

lemma Canonical.eq_of_near (hv : v.Canonical) (hw : w.Canonical) {x : ℚ} (hx : v.Near x) (hy : w.Near x) : v = w := by
  obtain h | h | h := below_or_eq_or_below v w
  · exact absurd hy (h.not_near hv hw hx)
  · exact h
  · exact absurd hx (h.not_near hw hv hy)

lemma Canonical.eq_of_shortest (hv : v.Canonical) (hw : w.Canonical) (h : v.shortest.value = w.shortest.value) :
    v = w :=
  hv.eq_of_near hw v.near_shortest (h ▸ w.near_shortest)

end Dyadic

end Lox
