import Lox.Decimal.Style
import Lox.Proofs.Decimal.Interval
import Lox.Proofs.Scan.Lossless

namespace Lox

namespace Decimal

def padded (d : Decimal) : List Char :=
  List.replicate ((-d.exponent).toNat + 1 - d.digitChars.length) '0' ++ d.digitChars ++
    List.replicate d.exponent.toNat '0'

lemma split_append (d : Decimal) : d.split.1 ++ d.split.2 = d.padded := by
  rw [split, List.splitAt_eq]
  exact List.take_append_drop _ _

lemma places_lt_length_padded (d : Decimal) : (-d.exponent).toNat < d.padded.length := by
  have hpos : 0 < d.digitChars.length := Nat.length_toDigits_pos
  simp only [padded, List.length_append, List.length_replicate]
  omega

lemma length_split_snd (d : Decimal) : d.split.2.length = (-d.exponent).toNat := by
  have hlt := d.places_lt_length_padded
  rw [split, List.splitAt_eq]
  change (d.padded.drop _).length = _
  rw [List.length_drop]
  change d.padded.length - (d.padded.length - _) = _
  omega

lemma isDigit_of_mem_padded {d : Decimal} {c : Char} (h : c ∈ d.padded) : c.isDigit = true := by
  simp only [padded, List.mem_append, List.mem_replicate] at h
  obtain (⟨-, rfl⟩ | h) | ⟨-, rfl⟩ := h
  · rfl
  · exact Nat.isDigit_of_mem_toDigits (by decide) (by decide) h
  · rfl

lemma isDigits_split_fst (d : Decimal) : IsDigits d.split.1 := by
  have hlength := congrArg List.length d.split_append
  rw [List.length_append, d.length_split_snd] at hlength
  refine ⟨List.ne_nil_of_length_pos (by have := d.places_lt_length_padded; omega), fun c hc => ?_⟩
  exact isDigit_of_mem_padded (d.split_append ▸ List.mem_append_left _ hc)

lemma isDigit_of_mem_split_snd {d : Decimal} {c : Char} (h : c ∈ d.split.2) : c.isDigit = true :=
  isDigit_of_mem_padded (d.split_append ▸ List.mem_append_right _ h)

lemma ofDigitChars_padded (d : Decimal) : Nat.ofDigitChars 10 d.padded 0 = 10 ^ d.exponent.toNat * d.digits := by
  rw [padded, Nat.ofDigitChars_append, Nat.ofDigitChars_append, Nat.ofDigitChars_replicate_zero,
    Nat.ofDigitChars_replicate_zero, mul_zero, digitChars, Nat.ofDigitChars_ten_toDigits]

lemma split_value (d : Decimal) :
    (Nat.ofDigitChars 10 (d.split.1 ++ d.split.2) 0 : ℚ) = d.value * 10 ^ d.split.2.length := by
  have hten := zpow_mul_pow_toNat_neg (b := 10) (by norm_num) d.exponent
  rw [split_append, ofDigitChars_padded, length_split_snd, value]
  push_cast
  rw [← hten]
  ring

lemma value_eq_of_split {d e : Decimal} (h : d.split = e.split) : d.value = e.value := by
  have hd := d.split_value
  rw [h, e.split_value] at hd
  exact (mul_right_cancel₀ (by positivity) hd).symm

def pointed (whole : List Char) : List Char → List Char
  | [] => whole
  | fraction => whole ++ '.' :: fraction

lemma pointed_eq_append (whole fraction : List Char) : ∃ rest, pointed whole fraction = whole ++ rest ∧
    (∀ c ∈ rest.head?, c = '.') ∧ rest.tail = fraction := by
  cases fraction with
  | nil => exact ⟨[], by simp [pointed]⟩
  | cons c fraction => exact ⟨'.' :: c :: fraction, by simp [pointed]⟩

lemma mem_of_mem_pointed {whole fraction : List Char} {c : Char} (h : c ∈ pointed whole fraction) :
    c ∈ whole ∨ c = '.' ∨ c ∈ fraction := by
  cases fraction with
  | nil => exact .inl h
  | cons d fraction => simpa [pointed] using h

lemma isDigit_head_pointed {whole : List Char} (hw : IsDigits whole) (fraction : List Char) :
    ∀ c ∈ (pointed whole fraction).head?, c.isDigit = true := by
  intro c hc
  obtain ⟨rest, hrest, -, -⟩ := pointed_eq_append whole fraction
  rw [hrest, List.head?_append_of_ne_nil _ hw.1] at hc
  exact hw.2 c (List.mem_of_mem_head? hc)

lemma pointed_inj {whole fraction whole' fraction' : List Char} (hw : IsDigits whole) (hw' : IsDigits whole')
    (h : pointed whole fraction = pointed whole' fraction') : whole = whole' ∧ fraction = fraction' := by
  obtain ⟨rest, hrest, hstop, rfl⟩ := pointed_eq_append whole fraction
  obtain ⟨rest', hrest', hstop', rfl⟩ := pointed_eq_append whole' fraction'
  rw [hrest, hrest'] at h
  obtain ⟨rfl, rfl⟩ := run_unique hw.2 (fun c hc => hstop c hc ▸ rfl) hw'.2 (fun c hc => hstop' c hc ▸ rfl) h
  exact ⟨rfl, rfl⟩

namespace Style

lemma toList_positionalText (d : Decimal) : (plain.positionalText d).toList = pointed d.split.1 d.split.2 := by
  rw [positionalText]
  obtain ⟨whole, fraction⟩ := d.split
  cases fraction with
  | nil => simp [pointed, plain]
  | cons c fraction => simp [pointed]

lemma value_eq_of_positionalText {d e : Decimal} (h : plain.positionalText d = plain.positionalText e) :
    d.value = e.value := by
  have hp := congrArg String.toList h
  rw [toList_positionalText, toList_positionalText] at hp
  exact value_eq_of_split (Prod.ext_iff.mpr (pointed_inj d.isDigits_split_fst e.isDigits_split_fst hp))

end Style

end Decimal

namespace Magnitude

variable {x y : Float} {v : Dyadic}

lemma field_ne_of_isFinite (h : x.isFinite = true) : x.toBits.toNat / 2 ^ 52 % 2 ^ 11 ≠ 2047 := by
  intro hfield
  have hones : @Float.Model.UnpackedFloat.unpackExponent .binary64 x.toModel.toBits.toBitVec = -1#11 := by
    change x.toModel.toBits.toNat / 2 ^ 52 % 2 ^ 11 = 2047 at hfield
    apply BitVec.eq_of_toNat_eq
    simpa [Float.Model.UnpackedFloat.unpackExponent, Nat.shiftRight_eq_div_pow] using hfield
  change (Float.Model.UnpackedFloat.unpack .binary64 x.toModel.toBits.toBitVec).isFinite = true at h
  delta Float.Model.UnpackedFloat.unpack at h
  rw [if_pos hones] at h
  split at h <;> cases h

lemma ofFloat_of_isFinite (h : x.isFinite = true) : ∃ v, ofFloat x = .finite v := by
  simp only [ofFloat, Nat.pow_eq]
  rw [if_neg (field_ne_of_isFinite h)]
  split <;> exact ⟨_, rfl⟩

lemma ofFloat_cases (h : ofFloat x = .finite v) :
    x.toBits.toNat / 2 ^ 52 % 2 ^ 11 = 0 ∧ v = ⟨x.toBits.toNat % 2 ^ 52, -1074⟩ ∨
      0 < x.toBits.toNat / 2 ^ 52 % 2 ^ 11 ∧
        v = ⟨2 ^ 52 + x.toBits.toNat % 2 ^ 52, (x.toBits.toNat / 2 ^ 52 % 2 ^ 11 : ℕ) - 1075⟩ := by
  rw [ofFloat] at h
  split at h
  · split at h <;> cases h
  · split at h
    case isTrue hzero => exact .inl ⟨hzero, (finite.inj h).symm⟩
    case isFalse hzero => exact .inr ⟨Nat.pos_of_ne_zero hzero, (finite.inj h).symm⟩

lemma canonical_of_ofFloat (h : ofFloat x = .finite v) : v.Canonical := by
  obtain ⟨-, rfl⟩ | ⟨hpos, rfl⟩ := ofFloat_cases h
  · constructor <;> dsimp only <;> omega
  · constructor <;> dsimp only <;> omega

lemma signText_eq_iff : signText x = signText y ↔ (2 ^ 63 ≤ x.toBits.toNat ↔ 2 ^ 63 ≤ y.toBits.toNat) := by
  simp only [signText, Nat.pow_eq]
  by_cases hx : 2 ^ 63 ≤ x.toBits.toNat <;> by_cases hy : 2 ^ 63 ≤ y.toBits.toNat <;>
    simp only [hx, hy, if_true, if_false] <;> decide

lemma eq_of_ofFloat (hx : ofFloat x = .finite v) (hy : ofFloat y = .finite v) (hsign : signText x = signText y) :
    x = y := by
  have hbits : x.toBits.toNat = y.toBits.toNat := by
    have hxlt := x.toBits.toNat_lt
    have hylt := y.toBits.toNat_lt
    rw [signText_eq_iff] at hsign
    obtain ⟨hxfield, rfl⟩ | ⟨hxfield, rfl⟩ := ofFloat_cases hx <;>
      obtain ⟨hyfield, hv⟩ | ⟨hyfield, hv⟩ := ofFloat_cases hy <;>
      rw [Dyadic.mk.injEq] at hv <;> omega
  obtain ⟨⟨a, ha⟩⟩ := x
  obtain ⟨⟨b, hb⟩⟩ := y
  have hab : a = b := UInt64.toNat_inj.mp hbits
  subst hab
  rfl

end Magnitude

namespace Decimal.Style

variable {x y : Float}

lemma plain_text_of_ofFloat {v : Dyadic} (h : Magnitude.ofFloat x = .finite v) :
    plain.text x = signText x ++ plain.positionalText v.shortest := by
  rw [text, h]
  rfl

lemma eq_of_mem_signText {c : Char} (h : c ∈ (signText x).toList) : c = '-' := by
  rw [signText] at h
  split at h
  · simpa using h
  · simp at h

lemma plain_text_ne_nil (hx : x.isFinite = true) : (plain.text x).toList ≠ [] := by
  obtain ⟨v, hv⟩ := Magnitude.ofFloat_of_isFinite hx
  obtain ⟨rest, hrest, -, -⟩ := pointed_eq_append v.shortest.split.1 v.shortest.split.2
  rw [plain_text_of_ofFloat hv, String.toList_append, toList_positionalText, hrest]
  simp [v.shortest.isDigits_split_fst.1]

lemma eq_or_isDigit_of_mem_plain_text (hx : x.isFinite = true) {c : Char} (hc : c ∈ (plain.text x).toList) :
    c = '-' ∨ c = '.' ∨ c.isDigit = true := by
  obtain ⟨v, hv⟩ := Magnitude.ofFloat_of_isFinite hx
  rw [plain_text_of_ofFloat hv, String.toList_append, toList_positionalText, List.mem_append] at hc
  obtain hsign | hdigits := hc
  · exact .inl (eq_of_mem_signText hsign)
  · obtain hwhole | rfl | hfraction := mem_of_mem_pointed hdigits
    · exact .inr (.inr (v.shortest.isDigits_split_fst.2 c hwhole))
    · exact .inr (.inl rfl)
    · exact .inr (.inr (isDigit_of_mem_split_snd hfraction))

lemma eq_of_plain_text (hx : x.isFinite = true) (hy : y.isFinite = true) (h : plain.text x = plain.text y) : x = y := by
  obtain ⟨v, hv⟩ := Magnitude.ofFloat_of_isFinite hx
  obtain ⟨w, hw⟩ := Magnitude.ofFloat_of_isFinite hy
  have hlist := congrArg String.toList h
  rw [plain_text_of_ofFloat hv, plain_text_of_ofFloat hw, String.toList_append, String.toList_append] at hlist
  have hsign (z : Float) : ∀ c ∈ (signText z).toList, (c == '-') = true := by
    intro c hc
    rw [eq_of_mem_signText hc, beq_self_eq_true]
  have hdigits (d : Decimal) : ∀ c ∈ (plain.positionalText d).toList.head?, (c == '-') = false := by
    intro c hc
    rw [toList_positionalText] at hc
    have hdigit := isDigit_head_pointed d.isDigits_split_fst _ c hc
    rw [beq_eq_false_iff_ne]
    rintro rfl
    cases hdigit
  obtain ⟨hs, hd⟩ := run_unique (hsign x) (hdigits v.shortest) (hsign y) (hdigits w.shortest) hlist
  have hvalue := value_eq_of_positionalText (String.toList_inj.mp hd)
  obtain rfl := (Magnitude.canonical_of_ofFloat hv).eq_of_shortest (Magnitude.canonical_of_ofFloat hw) hvalue
  exact Magnitude.eq_of_ofFloat hv hw (String.toList_inj.mp hs)

example : plain.text 0.3 = "0.3" ∧ plain.text (0.1 + 0.2) = "0.30000000000000004" := by decide +kernel

end Decimal.Style

end Lox
