import Lox.Proofs.Scan.Lossless

/-! Maximal munch. Where a piece begins, scanning takes the longest lexeme there is, and there is a fault exactly where
there is none. The first character decides which lexemes can be meant, so each kind of piece is compared only with
those that begin alike. -/

namespace Lox

inductive Lexeme : List Char → Prop
  | symbol (s : Symbol) : Lexeme s.spelling
  | comment {inner : List Char} : '\n' ∉ inner → Lexeme ('/' :: '/' :: inner)
  | space {c : Char} : Part.IsSpace c → Lexeme [c]
  | string {inner : List Char} : '"' ∉ inner → Lexeme ('"' :: inner ++ ['"'])
  | integer {whole : List Char} : IsDigits whole → Lexeme whole
  | decimal {whole fraction : List Char} : IsDigits whole → IsDigits fraction → Lexeme (whole ++ '.' :: fraction)
  | word {text : List Char} : IsWord text → Lexeme text

structure Longest (source text : List Char) : Prop where
  lexeme : Lexeme text
  starts : text <+: source
  longest : ∀ other, other <+: source → Lexeme other → other.length ≤ text.length

section Initials

inductive Initial where
  | space | quote | symbol | digit | letter

instance (c : Char) : Decidable (Part.IsSpace c) :=
  inferInstanceAs (Decidable (_ ∨ _))

namespace Initial

def ofChar? (c : Char) : Option Initial :=
  if Part.IsSpace c then some .space
  else if c = '"' then some .quote
  else if (Symbol.ofChar? c).isSome then some .symbol
  else if c.isDigit then some .digit
  else if Text.isAlphabetic c then some .letter
  else none

def Continues (c : Char) (text : List Char) : Initial → Prop
  | .space => text = []
  | .quote => ∃ inner, '"' ∉ inner ∧ text = inner ++ ['"']
  | .symbol => (∃ s : Symbol, s.spelling = c :: text) ∨ (c = '/' ∧ ∃ inner, '\n' ∉ inner ∧ text = '/' :: inner)
  | .digit => (∀ d ∈ text, d.isDigit = true) ∨
      ∃ whole fraction, (∀ d ∈ whole, d.isDigit = true) ∧ IsDigits fraction ∧ text = whole ++ '.' :: fraction
  | .letter => ∀ d ∈ text, Text.isAlphanumeric d = true

def marks : List Char :=
  [' ', '\r', '\t', '\n', '"', '(', ')', '\x7b', '\x7d', ',', '.', '-', '+', ';', '/', '*', '!', '=', '>', '<']

variable {c : Char} {text : List Char}

lemma ofChar?_of_not_mem_marks (h : c ∉ marks) :
    ofChar? c = if c.isDigit then some .digit else if Text.isAlphabetic c then some .letter else none := by
  have hspace : ¬Part.IsSpace c := by
    rintro (rfl | rfl | rfl | rfl) <;> exact h (by decide)
  have hquote : c ≠ '"' := by
    rintro rfl
    exact h (by decide)
  have hsymbol : ¬(Symbol.ofChar? c).isSome = true := by
    intro hs
    obtain ⟨s, hs⟩ := Option.isSome_iff_exists.mp hs
    have hc := Symbol.ofChar?_eq_some_iff.mp hs
    cases s <;> cases hc <;> exact h (by decide)
  rw [ofChar?, if_neg hspace, if_neg hquote, if_neg hsymbol]

lemma not_mem_marks {q : Char → Bool} (hq : marks.all (!q ·) = true) (h : q c = true) : c ∉ marks := by
  intro hc
  simpa [h] using List.all_eq_true.mp hq c hc

lemma not_isDigit_of_isAlphabetic (h : Text.isAlphabetic c = true) : ¬c.isDigit = true := by
  intro hd
  rw [Char.isDigit, Bool.and_eq_true, decide_eq_true_eq, decide_eq_true_eq] at hd
  obtain ⟨hlow, hhigh⟩ : 48 ≤ c.toNat ∧ c.toNat ≤ 57 :=
    ⟨UInt32.le_iff_toNat_le.mp hd.1, UInt32.le_iff_toNat_le.mp hd.2⟩
  have hdigits : ∀ n < 10, (Char.ofNat (48 + n)).isAlpha = false := by decide
  have hc : Char.ofNat (48 + (c.toNat - 48)) = c := by rw [Nat.add_sub_cancel' hlow, Char.ofNat_toNat]
  have hnot := hdigits (c.toNat - 48) (by omega)
  rw [hc, ← Text.isAlphabetic_of_ascii (by omega), h] at hnot
  cases hnot

lemma ofChar?_space (h : Part.IsSpace c) : ofChar? c = some .space :=
  if_pos h

lemma ofChar?_symbol {s : Symbol} (h : s.spelling = c :: text) : ofChar? c = some .symbol := by
  cases s <;> cases h <;> rfl

lemma ofChar?_digit (h : c.isDigit = true) : ofChar? c = some .digit := by
  rw [ofChar?_of_not_mem_marks (not_mem_marks (by decide) h), if_pos h]

lemma ofChar?_letter (h : Text.isAlphabetic c = true) : ofChar? c = some .letter := by
  rw [ofChar?_of_not_mem_marks (not_mem_marks (by decide) h), if_neg (not_isDigit_of_isAlphabetic h), if_pos h]

end Initial

open Initial

variable {c : Char} {rest text : List Char}

lemma IsDigits.exists_cons (h : IsDigits (c :: text)) : ofChar? c = some .digit ∧ ∀ d ∈ text, d.isDigit = true := by
  rw [IsDigits, List.forall_mem_cons] at h
  exact ⟨ofChar?_digit h.2.1, h.2.2⟩

lemma Lexeme.ne_nil (h : Lexeme text) : text ≠ [] := by
  cases h with
  | symbol s => cases s <;> simp [Symbol.spelling]
  | integer hw => exact hw.1
  | word hw => cases hw with | mk => simp
  | _ => simp

lemma Lexeme.continues (h : Lexeme (c :: text)) : ∃ i, ofChar? c = some i ∧ i.Continues c text := by
  generalize ht : c :: text = whole at h
  cases h with
  | symbol s => exact ⟨.symbol, ofChar?_symbol ht.symm, .inl ⟨s, ht.symm⟩⟩
  | @comment inner hinner =>
    obtain ⟨rfl, rfl⟩ := List.cons.inj ht
    exact ⟨.symbol, rfl, .inr ⟨rfl, inner, hinner, rfl⟩⟩
  | space hc =>
    obtain ⟨rfl, rfl⟩ := List.cons.inj ht
    exact ⟨.space, ofChar?_space hc, rfl⟩
  | @string inner hinner =>
    obtain ⟨rfl, rfl⟩ := List.cons.inj ht
    exact ⟨.quote, rfl, inner, hinner, rfl⟩
  | integer hw =>
    subst ht
    obtain ⟨hc, hd⟩ := hw.exists_cons
    exact ⟨.digit, hc, .inl hd⟩
  | @decimal digits fraction hw hf =>
    cases digits with
    | nil => exact absurd rfl hw.1
    | cons d digits =>
      obtain ⟨rfl, rfl⟩ := List.cons.inj ht
      obtain ⟨hc, hd⟩ := hw.exists_cons
      exact ⟨.digit, hc, .inr ⟨digits, fraction, hd, hf, rfl⟩⟩
  | word hw =>
    subst ht
    cases hw with
    | mk hc hd => exact ⟨.letter, ofChar?_letter hc, hd⟩

lemma Lexeme.continues_of {i : Initial} (hi : ofChar? c = some i) (h : Lexeme (c :: text)) : i.Continues c text := by
  obtain ⟨j, hj, hc⟩ := h.continues
  obtain rfl := Option.some.inj (hi.symm.trans hj)
  exact hc

lemma Longest.cons {i : Initial} (hi : ofChar? c = some i) (hl : Lexeme (c :: text)) (hp : text <+: rest)
    (h : ∀ other, other <+: rest → i.Continues c other → other.length ≤ text.length) :
    Longest (c :: rest) (c :: text) := by
  refine ⟨hl, List.cons_prefix_cons.mpr ⟨rfl, hp⟩, fun other ho hother => ?_⟩
  cases other with
  | nil => exact absurd rfl hother.ne_nil
  | cons d other =>
    obtain ⟨rfl, hrest⟩ := List.cons_prefix_cons.mp ho
    exact Nat.succ_le_succ (h other hrest (hother.continues_of hi))

end Initials

namespace Piece

open Initial

variable {c : Char} {rest : List Char}

end Piece

namespace Token.Kind.Spelled

variable {kind : Token.Kind} {text : List Char}

lemma eq_ofWord (h : kind.Spelled text) (hw : IsWord text) : kind = ofWord (String.ofList text) := by
  cases h with
  | symbol s => cases s <;> exact absurd hw.head (by decide)
  | keyword k => rw [String.ofList_toList, ofWord, Keyword.ofSpelling?_eq_some_iff.mpr rfl]
  | identifier _ hk =>
    rw [ofWord]
    split
    · rename_i k hspelling
      exact absurd (Keyword.ofSpelling?_eq_some_iff.mp hspelling) (hk k)
    · rfl
  | string _ => exact absurd hw.head (by decide)
  | integer hd =>
    cases hw with
    | mk hc _ => exact absurd (hd.2 _ (.head _)) (Initial.not_isDigit_of_isAlphabetic hc)
  | @decimal whole _ hd _ =>
    cases whole with
    | nil => exact absurd rfl hd.1
    | cons c whole => exact absurd (hd.2 c (.head _)) (Initial.not_isDigit_of_isAlphabetic hw.head)

end Token.Kind.Spelled

end Lox
