import Lox.Scan
import Mathlib.Data.List.TakeWhile
import Mathlib.Tactic.Lemma

namespace Lox

section Runs

variable {α : Type} {q : α → Bool} {u v : List α}

lemma takeWhile_dropWhile_run (hu : ∀ a ∈ u, q a = true) (hv : ∀ a ∈ v.head?, q a = false) :
    (u ++ v).takeWhile q = u ∧ (u ++ v).dropWhile q = v := by
  rw [List.takeWhile_append_of_pos hu, List.dropWhile_append_of_pos hu]
  cases v with
  | nil => simp
  | cons a v => simp [hv a rfl]

lemma takeWhile_dropWhile_append (h : ∀ a ∈ (u.dropWhile q ++ v).head?, q a = false) :
    (u ++ v).takeWhile q = u.takeWhile q ∧ (u ++ v).dropWhile q = u.dropWhile q ++ v := by
  have hu : ∀ a ∈ u.takeWhile q, q a = true := fun _ => List.mem_takeWhile_imp
  have hsplit := takeWhile_dropWhile_run hu h
  rwa [← List.append_assoc, List.takeWhile_append_dropWhile] at hsplit

lemma run_unique {u' v' : List α} (hu : ∀ a ∈ u, q a = true) (hv : ∀ a ∈ v.head?, q a = false)
    (hu' : ∀ a ∈ u', q a = true) (hv' : ∀ a ∈ v'.head?, q a = false) (h : u ++ v = u' ++ v') :
    u = u' ∧ v = v' := by
  obtain ⟨htake, hdrop⟩ := takeWhile_dropWhile_run hu hv
  obtain ⟨htake', hdrop'⟩ := takeWhile_dropWhile_run hu' hv'
  exact ⟨by rw [← htake, h, htake'], by rw [← hdrop, h, hdrop']⟩

end Runs

def IsDigits (text : List Char) : Prop :=
  text ≠ [] ∧ ∀ c ∈ text, c.isDigit = true

lemma isDigits_takeWhile {c : Char} (hc : c.isDigit = true) (rest : List Char) :
    IsDigits (c :: rest.takeWhile Char.isDigit) := by
  refine ⟨List.cons_ne_nil _ _, ?_⟩
  rw [List.forall_mem_cons]
  exact ⟨hc, fun d => List.mem_takeWhile_imp⟩

namespace Decimal

variable {whole fraction : List Char}

lemma read?_integer (h : IsDigits whole) : read? whole = some (ofDigits whole []) := by
  obtain ⟨htake, hdrop⟩ := takeWhile_dropWhile_run (v := []) h.2 (by simp)
  rw [List.append_nil] at htake hdrop
  rw [read?, htake, hdrop]
  simp [h.1]

lemma read?_decimal (hw : IsDigits whole) (hf : ∀ c ∈ fraction, c.isDigit = true) :
    read? (whole ++ '.' :: fraction) = some (ofDigits whole fraction) := by
  obtain ⟨htake, hdrop⟩ := takeWhile_dropWhile_run (v := '.' :: fraction) hw.2 (by simp)
  have hall : fraction.all Char.isDigit = true := List.all_eq_true.mpr hf
  rw [read?, htake, hdrop]
  simp [hw.1, hall]

end Decimal

namespace Piece

def text : Piece → List Char
  | .token _ text => text
  | .stray c => [c]
  | .unclosed text => text
  | .broken text _ => text

def newlines (p : Piece) : ℕ :=
  p.text.count '\n'

variable {c : Char} {rest : List Char}

lemma number_integer (hc : c.isDigit = true)
    (h : ∀ d tail, rest.dropWhile Char.isDigit = '.' :: d :: tail → ¬d.isDigit = true) :
    number c rest = (.token (.number (Decimal.ofDigits (c :: rest.takeWhile Char.isDigit) []))
      (c :: rest.takeWhile Char.isDigit), rest.dropWhile Char.isDigit) := by
  have hnumeral : numeral c rest = (c :: rest.takeWhile Char.isDigit, rest.dropWhile Char.isDigit) := by
    unfold numeral
    split
    · rename_i d tail htail
      rw [if_neg (h d tail htail), htail]
    · rfl
  simp only [number, hnumeral, Decimal.read?_integer (isDigits_takeWhile hc rest)]

lemma number_decimal {d : Char} {tail : List Char} (hc : c.isDigit = true) (hd : d.isDigit = true)
    (h : rest.dropWhile Char.isDigit = '.' :: d :: tail) :
    number c rest = (.token
      (.number (Decimal.ofDigits (c :: rest.takeWhile Char.isDigit) (d :: tail.takeWhile Char.isDigit)))
      (c :: rest.takeWhile Char.isDigit ++ '.' :: d :: tail.takeWhile Char.isDigit),
      tail.dropWhile Char.isDigit) := by
  have hnumeral : numeral c rest = (c :: rest.takeWhile Char.isDigit ++ '.' :: d :: tail.takeWhile Char.isDigit,
      tail.dropWhile Char.isDigit) := by
    unfold numeral
    rw [h]
    exact if_pos hd
  simp only [number, hnumeral, Decimal.read?_decimal (isDigits_takeWhile hc rest) (isDigits_takeWhile hd tail).2]

lemma first_cases {P : Piece × List Char → Prop}
    (newline : c = '\n' → P (.token .newline [c], rest))
    (blank : c ≠ '\n' → isSpace c = true → P (.token .blank [c], rest))
    (comment : c = '/' → rest.head? = some '/' → P (comment rest))
    (string : c = '"' → P (string rest))
    (symbol : ∀ s : Symbol, s.spelling = [c] → ¬(c = '/' ∧ rest.head? = some '/') → P (symbol s c rest))
    (integer : c.isDigit = true → (∀ d tail, rest.dropWhile Char.isDigit = '.' :: d :: tail → ¬d.isDigit = true) →
      P (.token (.number (Decimal.ofDigits (c :: rest.takeWhile Char.isDigit) [])) (c :: rest.takeWhile Char.isDigit),
        rest.dropWhile Char.isDigit))
    (decimal : ∀ d tail, c.isDigit = true → d.isDigit = true → rest.dropWhile Char.isDigit = '.' :: d :: tail →
      P (.token (.number (Decimal.ofDigits (c :: rest.takeWhile Char.isDigit) (d :: tail.takeWhile Char.isDigit)))
        (c :: rest.takeWhile Char.isDigit ++ '.' :: d :: tail.takeWhile Char.isDigit), tail.dropWhile Char.isDigit))
    (word : Text.isAlphabetic c = true → P (word c rest))
    (stray : c ≠ '\n' → ¬isSpace c = true → c ≠ '"' → Symbol.ofChar? c = none → ¬c.isDigit = true →
      ¬Text.isAlphabetic c = true → P (.stray c, rest)) : P (first c rest) := by
  unfold first
  split
  · exact newline ‹_›
  split
  · exact blank ‹_› ‹_›
  split
  · rename_i h
    exact comment h.1 h.2
  split
  · exact string ‹_›
  split
  · rename_i s hs
    exact symbol s (Symbol.ofChar?_eq_some_iff.mp hs) ‹_›
  split
  · rename_i hc
    by_cases h : ∃ d tail, rest.dropWhile Char.isDigit = '.' :: d :: tail ∧ d.isDigit = true
    · obtain ⟨d, tail, htail, hd⟩ := h
      rw [number_decimal hc hd htail]
      exact decimal d tail hc hd htail
    · have hinteger : ∀ d tail, rest.dropWhile Char.isDigit = '.' :: d :: tail → ¬d.isDigit = true :=
        fun d tail htail hd => h ⟨d, tail, htail, hd⟩
      rw [number_integer hc hinteger]
      exact integer hc hinteger
  split
  · exact word ‹_›
  · apply stray <;> assumption

lemma symbol_text (s : Symbol) (c : Char) (rest : List Char) :
    (symbol s c rest).1.text ++ (symbol s c rest).2 = c :: rest := by
  unfold symbol
  split <;> rfl

lemma string_text (rest : List Char) : (string rest).1.text ++ (string rest).2 = '"' :: rest := by
  have h := rest.takeWhile_append_dropWhile (p := (· != '"'))
  unfold string
  split
  · rename_i hd
    simp_all [text]
  · rename_i hd
    simpa [text, hd] using h

lemma first_text (c : Char) (rest : List Char) : (first c rest).1.text ++ (first c rest).2 = c :: rest := by
  apply first_cases (P := fun cut => cut.1.text ++ cut.2 = c :: rest)
  case newline | blank | stray => intros; rfl
  case comment =>
    rintro rfl -
    simp [comment, text]
  case string =>
    rintro rfl
    exact string_text rest
  case symbol => exact fun s _ _ => symbol_text s c rest
  case integer => simp [text]
  case decimal =>
    intro d tail _ _ h
    have hrest := rest.takeWhile_append_dropWhile (p := Char.isDigit)
    rw [h] at hrest
    simpa [text] using hrest
  case word => simp [word, text]

lemma first_text_head (c : Char) (rest : List Char) : ∃ t, (first c rest).1.text = c :: t := by
  apply first_cases (P := fun cut => ∃ t, cut.1.text = c :: t)
  case newline | blank | integer | decimal | word | stray => intros; exact ⟨_, rfl⟩
  case comment =>
    rintro rfl -
    exact ⟨_, rfl⟩
  case string =>
    rintro rfl
    unfold string
    split <;> exact ⟨_, rfl⟩
  case symbol =>
    intro s _ _
    unfold symbol
    split <;> exact ⟨_, rfl⟩

lemma first_rest_length (c : Char) (rest : List Char) : (first c rest).2.length ≤ rest.length := by
  obtain ⟨t, ht⟩ := first_text_head c rest
  have h := congrArg List.length (first_text c rest)
  rw [ht] at h
  simp only [List.cons_append, List.length_cons, List.length_append] at h
  omega

lemma ofWord_cases (word : String) :
    (∃ k, Token.Kind.ofWord word = .keyword k) ∨ Token.Kind.ofWord word = .identifier word := by
  unfold Token.Kind.ofWord
  split
  · exact .inl ⟨_, rfl⟩
  · exact .inr rfl

lemma ofWord_ne {kind : Token.Kind} (hi : kind.isIdentifier = false) (hk : ∀ k, kind ≠ .keyword k) (word : String) :
    Token.Kind.ofWord word ≠ kind := by
  rintro rfl
  rcases ofWord_cases word with ⟨k, h⟩ | h
  · exact hk k h
  · rw [h] at hi
    cases hi

lemma first_shape (c : Char) (rest : List Char) :
    (∃ kind text, (first c rest).1 = .token kind text ∧ kind ≠ .eof) ∨ (first c rest).1 = .stray c ∨
      ∃ text, (first c rest).1 = .unclosed text := by
  apply first_cases (P := fun cut => (∃ kind text, cut.1 = .token kind text ∧ kind ≠ .eof) ∨ cut.1 = .stray c ∨
    ∃ text, cut.1 = .unclosed text)
  case newline | blank | comment | integer | decimal => intros; exact .inl ⟨_, _, rfl, by simp⟩
  case string =>
    intro _
    unfold string
    split
    · exact .inr (.inr ⟨_, rfl⟩)
    · exact .inl ⟨_, _, rfl, by simp⟩
  case symbol =>
    intro s _ _
    unfold symbol
    split <;> exact .inl ⟨_, _, rfl, by simp⟩
  case word => exact fun _ => .inl ⟨_, _, rfl, ofWord_ne rfl (by simp) _⟩
  case stray => intros; exact .inr (.inl rfl)

lemma first_ne_broken (c : Char) (rest text : List Char) (fault : InternalFault) :
    (first c rest).1 ≠ .broken text fault := by
  rcases first_shape c rest with ⟨_, _, h, -⟩ | h | ⟨_, h⟩ <;> simp [h]

lemma first_ne_eof (c : Char) (rest text : List Char) : (first c rest).1 ≠ .token .eof text := by
  rcases first_shape c rest with ⟨_, _, h, hk⟩ | h | ⟨_, h⟩ <;> simp_all

lemma foldl_newlines (line : ℕ) (text : List Char) :
    text.foldl (fun line c => if c = '\n' then line + 1 else line) line = line + text.count '\n' := by
  induction text generalizing line with
  | nil => rfl
  | cons c text ih =>
    rw [List.foldl_cons, ih, List.count_cons]
    by_cases hc : c = '\n'
    · rw [if_pos hc, if_pos (beq_iff_eq.mpr hc), Nat.add_right_comm, Nat.add_assoc]
    · rw [if_neg hc, if_neg (by simpa using hc), Nat.add_zero]

lemma advance_token {kind : Token.Kind} {text : List Char} (hk : kind ≠ .newline) (h : '\n' ∉ text) (line : ℕ) :
    (token kind text).advance line = line + (token kind text).newlines := by
  rw [newlines, Piece.text, List.count_eq_zero.mpr h, Nat.add_zero]
  cases kind with
  | newline => exact absurd rfl hk
  | string inner => rw [advance, foldl_newlines, List.count_eq_zero.mpr h, Nat.add_zero]
  | _ => rfl

lemma newline_not_mem {q : Char → Bool} (hq : q '\n' = false) {text : List Char} (h : ∀ c ∈ text, q c = true) :
    '\n' ∉ text := by
  intro hmem
  rw [h _ hmem] at hq
  cases hq

lemma newline_not_mem_digits {c : Char} (hc : c.isDigit = true) (rest : List Char) :
    '\n' ∉ c :: rest.takeWhile Char.isDigit :=
  newline_not_mem (by decide) (isDigits_takeWhile hc rest).2

lemma advance_comment (rest : List Char) (line : ℕ) :
    (comment rest).1.advance line = line + (comment rest).1.newlines := by
  refine advance_token (by simp) (newline_not_mem (q := (· != '\n')) (by decide) ?_) line
  rw [List.forall_mem_cons]
  exact ⟨by decide, fun _ => List.mem_takeWhile_imp⟩

lemma advance_symbol {s : Symbol} {c : Char} (hs : s.spelling = [c]) (rest : List Char) (line : ℕ) :
    (symbol s c rest).1.advance line = line + (symbol s c rest).1.newlines := by
  have hc : '\n' ≠ c := by
    rintro rfl
    cases s <;> cases hs
  unfold symbol
  split
  · exact advance_token (by simp) (by simp [hc]) line
  · exact advance_token (by simp) (by simp [hc]) line

lemma advance_word {c : Char} (hc : Text.isAlphabetic c = true) (rest : List Char) (line : ℕ) :
    (word c rest).1.advance line = line + (word c rest).1.newlines := by
  refine advance_token (ofWord_ne rfl (by simp) _) (newline_not_mem (q := Text.isAlphanumeric) (by decide) ?_) line
  rw [List.forall_mem_cons]
  exact ⟨Text.isAlphanumeric_of_isAlphabetic hc, fun _ => List.mem_takeWhile_imp⟩

/-- The counter passes the newlines of a piece: only newlines by themselves and strings hold any. -/
lemma advance_first (c : Char) (rest : List Char) (line : ℕ) :
    (first c rest).1.advance line = line + (first c rest).1.newlines := by
  apply first_cases (P := fun cut => cut.1.advance line = line + cut.1.newlines)
  case newline =>
    rintro rfl
    rfl
  case blank => exact fun hn _ => advance_token (by simp) (by simpa using Ne.symm hn) line
  case comment => exact fun _ _ => advance_comment rest line
  case string =>
    intro _
    unfold string
    split <;> exact foldl_newlines line _
  case symbol => exact fun s hs _ => advance_symbol hs rest line
  case integer => exact fun hc _ => advance_token (by simp) (newline_not_mem_digits hc rest) line
  case decimal =>
    intro d tail hc hd _
    refine advance_token (by simp) ?_ line
    intro h
    rcases List.mem_append.mp h with h | h
    · exact newline_not_mem_digits hc rest h
    · cases h with
      | tail _ h => exact newline_not_mem_digits hd tail h
  case word => exact fun hc => advance_word hc rest line
  case stray =>
    intro hn _ _ _ _ _
    have hcount : [c].count '\n' = 0 := List.count_eq_zero.mpr (by simpa using Ne.symm hn)
    rw [newlines, Piece.text, hcount]
    rfl

def cut : List Char → List Piece
  | [] => []
  | c :: rest => (first c rest).1 :: cut (first c rest).2
termination_by source => source.length
decreasing_by exact Nat.lt_succ_of_le (first_rest_length c rest)

@[simp] lemma cut_nil : cut [] = [] := by
  rw [cut]

lemma cut_cons (c : Char) (rest : List Char) : cut (c :: rest) = (first c rest).1 :: cut (first c rest).2 := by
  rw [cut]

theorem cut_induction {P : List Char → Prop} (nil : P []) (cons : ∀ c rest, P (first c rest).2 → P (c :: rest)) :
    ∀ source, P source
  | [] => nil
  | c :: rest => cons c rest (cut_induction nil cons (first c rest).2)
termination_by source => source.length
decreasing_by exact Nat.lt_succ_of_le (first_rest_length c rest)

lemma eof_not_mem_cut (source text : List Char) : .token .eof text ∉ cut source := by
  induction source using cut_induction with
  | nil => simp
  | cons c rest ih =>
    rw [cut_cons, List.mem_cons, not_or]
    exact ⟨(first_ne_eof c rest text).symm, ih⟩

end Piece

namespace Placed

def all (line : ℕ) : List Piece → List Placed
  | [] => []
  | p :: rest => ⟨p, line + p.newlines⟩ :: all (line + p.newlines) rest

@[simp] lemma all_nil (line : ℕ) : all line [] = [] := rfl

@[simp] lemma all_cons (line : ℕ) (p : Piece) (rest : List Piece) :
    all line (p :: rest) = ⟨p, line + p.newlines⟩ :: all (line + p.newlines) rest := rfl

lemma piece_mem {line : ℕ} {pieces : List Piece} {p : Placed} (h : p ∈ all line pieces) : p.piece ∈ pieces := by
  induction pieces generalizing line with
  | nil => simp at h
  | cons q pieces ih =>
    rw [all_cons, List.mem_cons] at h
    rcases h with rfl | h
    · exact .head _
    · exact .tail _ (ih h)

lemma allOnto_cons (done : List Placed) (line n : ℕ) (c : Char) (rest : List Char) :
    allOnto done line (n + 1) (c :: rest) =
      allOnto (⟨(Piece.first c rest).1, line + (Piece.first c rest).1.newlines⟩ :: done)
        (line + (Piece.first c rest).1.newlines) n (Piece.first c rest).2 := by
  have hfirst := Piece.first_ne_broken c rest
  rw [allOnto, Piece.next, ← Piece.advance_first]
  cases hp : Piece.first c rest with
  | mk piece rest' =>
    rw [hp] at hfirst
    cases piece with
    | broken text fault => exact absurd rfl (hfirst text fault)
    | _ => rfl

/-- The scan cuts all pieces off, and its counter passes all newlines. -/
lemma allOnto_eq (done : List Placed) (line : ℕ) {n : ℕ} {source : List Char} (hn : source.length ≤ n) :
    allOnto done line n source =
      .ok ((all line (Piece.cut source)).reverse ++ done, line + source.count '\n') := by
  induction n generalizing done line source with
  | zero =>
    obtain rfl : source = [] := List.length_eq_zero_iff.mp (by omega)
    simp [allOnto]
  | succ n ih =>
    cases source with
    | nil => simp [allOnto]
    | cons c rest =>
      have hlength := Piece.first_rest_length c rest
      rw [List.length_cons] at hn
      rw [allOnto_cons, ih _ _ (by omega), Piece.cut_cons, all_cons, ← Piece.first_text c rest, List.count_append,
        Nat.add_assoc]
      simp [Piece.newlines]

end Placed

def scanned (source : String) : Scan where
  tokens := (Placed.all 1 (Piece.cut source.toList)).filterMap Placed.token? ++
    [Token.endAt (1 + source.toList.count '\n')]
  faults := (Placed.all 1 (Piece.cut source.toList)).filterMap Placed.fault?

lemma scan_eq (source : String) : scan source = .ok (scanned source) := by
  rw [scan, Placed.allOnto_eq [] 1 le_rfl, List.append_nil]
  simp only [bind, Except.bind, pure, Except.pure, List.reverse_reverse]
  rfl

lemma exists_scanned_tokens (source : String) :
    ∃ front line, (scanned source).tokens = front ++ [Token.endAt line] ∧ ∀ t ∈ front, t.isEof = false := by
  refine ⟨_, _, rfl, fun t ht => ?_⟩
  obtain ⟨⟨piece, line⟩, hp, ht⟩ := List.mem_filterMap.mp ht
  have hmem := Placed.piece_mem hp
  cases piece with
  | token kind text =>
    have hk : kind ≠ .eof := by
      rintro rfl
      exact Piece.eof_not_mem_cut _ _ hmem
    simp only [Placed.token?] at ht
    split at ht
    · cases ht
    · cases ht
      simpa [Token.isEof] using hk
  | _ => cases ht

end Lox
