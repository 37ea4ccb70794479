import Lox.Proofs.Lines
import Lox.Proofs.Scan.MaximalMunch

namespace Lox

def Apart (rest : List Char) : Prop :=
  ∀ c ∈ rest.head?, c = ' '

lemma apart_nil : Apart [] :=
  fun _ h => by cases h

lemma apart_space (rest : List Char) : Apart (' ' :: rest) := by
  simp [Apart]

lemma Apart.stops {rest : List Char} (h : Apart rest) {q : Char → Bool} (hq : q ' ' = false) :
    ∀ c ∈ rest.head?, q c = false := by
  intro c hc
  rw [h c hc, hq]

namespace Piece

open Initial

variable {c : Char} {rest : List Char}

lemma first_of_not_mem_marks (h : c ∉ marks) (rest : List Char) :
    first c rest =
      if c.isDigit then number c rest else if Text.isAlphabetic c then word c rest else (.stray c, rest) := by
  have hspace : ¬(c = '\n' ∨ isSpace c = true) := by
    rw [← isSpace_iff]
    rintro (rfl | rfl | rfl | rfl) <;> exact h (by decide)
  have hslash : c ≠ '/' := by
    rintro rfl
    exact h (by decide)
  have hquote : c ≠ '"' := by
    rintro rfl
    exact h (by decide)
  have hsymbol : Symbol.ofChar? c = none := by
    by_contra hs
    obtain ⟨s, hs⟩ := Option.ne_none_iff_exists'.mp hs
    have hc := Symbol.ofChar?_eq_some_iff.mp hs
    cases s <;> cases hc <;> exact h (by decide)
  rw [not_or] at hspace
  rw [first, if_neg hspace.1, if_neg hspace.2, if_neg (fun hc => hslash hc.1), if_neg hquote, hsymbol]

lemma first_digit (h : c.isDigit = true) (rest : List Char) : first c rest = number c rest := by
  rw [first_of_not_mem_marks (not_mem_marks (by decide) h), if_pos h]

lemma first_letter (h : Text.isAlphabetic c = true) (rest : List Char) : first c rest = word c rest := by
  rw [first_of_not_mem_marks (not_mem_marks (by decide) h), if_neg (not_isDigit_of_isAlphabetic h), if_pos h]

lemma first_symbol (s : Symbol) (h : Apart rest) {text : List Char} (hs : s.spelling = c :: text) :
    first c (text ++ rest) = (.token (.symbol s) s.spelling, rest) := by
  cases rest with
  | nil => cases s <;> cases hs <;> rfl
  | cons d rest =>
    obtain rfl := h d rfl
    cases s <;> cases hs <;> rfl

lemma first_word (h : Apart rest) {text : List Char} (hw : IsWord (c :: text)) :
    first c (text ++ rest) = (.token (Token.Kind.ofWord (String.ofList (c :: text))) (c :: text), rest) := by
  cases hw with
  | mk hc htext =>
    obtain ⟨htake, hdrop⟩ := takeWhile_dropWhile_run htext (h.stops (by decide))
    rw [first_letter hc, word, htake, hdrop]

lemma first_string {inner : List Char} (h : '"' ∉ inner) (rest : List Char) :
    first '"' (inner ++ ['"'] ++ rest) = (.token (.string (String.ofList inner)) ('"' :: inner ++ ['"']), rest) := by
  have hstop : ∀ c ∈ ('"' :: rest).head?, (c != '"') = false := by simp
  obtain ⟨htake, hdrop⟩ := takeWhile_dropWhile_run (ne_quote_of_not_mem h) hstop
  change string (inner ++ ['"'] ++ rest) = _
  rw [List.append_assoc, List.singleton_append, string, htake, hdrop]

lemma first_integer (h : Apart rest) {text : List Char} (hd : IsDigits (c :: text)) :
    first c (text ++ rest) = (.token (.number (Decimal.ofDigits (c :: text) [])) (c :: text), rest) := by
  obtain ⟨hc, htext⟩ := List.forall_mem_cons.mp hd.2
  obtain ⟨htake, hdrop⟩ := takeWhile_dropWhile_run htext (h.stops (by decide))
  have hinteger : ∀ d tail, (text ++ rest).dropWhile Char.isDigit = '.' :: d :: tail → ¬d.isDigit = true := by
    intro d tail htail
    rw [hdrop] at htail
    cases h '.' (by rw [htail]; rfl)
  rw [first_digit hc, number_integer hc hinteger, htake, hdrop]

lemma first_decimal (h : Apart rest) {text fraction : List Char} (hd : IsDigits (c :: text))
    (hf : IsDigits fraction) :
    first c (text ++ '.' :: fraction ++ rest) =
      (.token (.number (Decimal.ofDigits (c :: text) fraction)) (c :: text ++ '.' :: fraction), rest) := by
  obtain ⟨hc, htext⟩ := List.forall_mem_cons.mp hd.2
  cases fraction with
  | nil => exact absurd rfl hf.1
  | cons d fraction =>
    obtain ⟨hd, hfraction⟩ := List.forall_mem_cons.mp hf.2
    have hstop : ∀ c ∈ ('.' :: d :: (fraction ++ rest)).head?, c.isDigit = false := by simp
    obtain ⟨htake, hdrop⟩ := takeWhile_dropWhile_run htext hstop
    obtain ⟨hftake, hfdrop⟩ := takeWhile_dropWhile_run hfraction (h.stops (by decide))
    rw [List.append_assoc, List.cons_append, List.cons_append, first_digit hc, number_decimal hc hd hdrop, htake,
      hftake, hfdrop]

end Piece

open Piece in
lemma Token.Kind.Spelled.first {kind : Token.Kind} {c : Char} {text rest : List Char} (h : kind.Spelled (c :: text))
    (hr : Apart rest) : Piece.first c (text ++ rest) = (.token kind (c :: text), rest) := by
  have hword (hw : IsWord (c :: text)) : Piece.first c (text ++ rest) = (.token kind (c :: text), rest) := by
    rw [h.eq_ofWord hw, first_word hr hw]
  generalize ht : c :: text = lexeme at h hword ⊢
  cases h with
  | symbol s => exact first_symbol s hr ht.symm
  | keyword k => exact hword k.isWord_spelling
  | identifier hw _ => exact hword hw
  | @string inner hinner =>
    obtain ⟨rfl, rfl⟩ := List.cons.inj ht
    exact first_string hinner rest
  | integer hd =>
    subst ht
    exact first_integer hr hd
  | @decimal whole fraction hd hf =>
    cases whole with
    | nil => exact absurd rfl hd.1
    | cons d whole =>
      obtain ⟨rfl, rfl⟩ := List.cons.inj ht
      exact first_decimal hr hd hf

lemma Token.Kind.Spelled.kind_eq {k l : Token.Kind} {text : List Char} (hk : k.Spelled text) (hl : l.Spelled text) :
    k = l := by
  cases text with
  | nil => exact absurd rfl hk.ne_nil
  | cons c text =>
    have h := hk.first apart_nil
    rw [hl.first apart_nil, Prod.mk.injEq, Piece.token.injEq] at h
    exact h.1.1.symm

def spaced (ts : List Token) : String :=
  " ".intercalate (ts.map Token.lexeme)

lemma cut_space (rest : List Char) : Piece.cut (' ' :: rest) = .token .blank [' '] :: Piece.cut rest :=
  Piece.cut_cons ' ' rest

def Token.piece (t : Token) : Piece :=
  .token t.kind t.lexeme.toList

lemma cut_lexeme {t : Token} {rest : List Char} (h : t.kind.Spelled t.lexeme.toList) (hr : Apart rest) :
    Piece.cut (t.lexeme.toList ++ rest) = t.piece :: Piece.cut rest := by
  rw [Token.piece]
  cases ht : t.lexeme.toList with
  | nil => exact absurd ht h.ne_nil
  | cons c text =>
    rw [ht] at h
    rw [List.cons_append, Piece.cut_cons, h.first hr]

lemma cut_spaced {ts : List Token} (h : ∀ t ∈ ts, t.kind.Spelled t.lexeme.toList) :
    Piece.cut (spaced ts).toList = (ts.map Token.piece).intersperse (.token .blank [' ']) := by
  have hblank : " ".toList = [' '] := rfl
  rw [spaced, String.toList_intercalate, hblank]
  induction ts with
  | nil => exact Piece.cut_nil
  | cons t ts ih =>
    obtain ⟨ht, hts⟩ := List.forall_mem_cons.mp h
    cases ts with
    | nil => simpa using cut_lexeme ht apart_nil
    | cons u us =>
      have htail := ih hts
      simp only [List.map_cons, List.intercalate_cons_cons, List.append_assoc, List.singleton_append,
        List.intersperse_cons_cons] at htail ⊢
      rw [cut_lexeme ht (apart_space _), cut_space, htail]

section Contents

lemma filterMap_intersperse {α β : Type} {f : α → Option β} {sep : α} (h : f sep = none) (l : List α) :
    (l.intersperse sep).filterMap f = l.filterMap f := by
  induction l with
  | nil => rfl
  | cons a l ih =>
    cases l with
    | nil => rfl
    | cons b l =>
      rw [List.intersperse_cons_cons, List.filterMap_cons, List.filterMap_cons_none h, ih, ← List.filterMap_cons]

namespace Piece

def content? : Piece → Option (Token.Kind × String)
  | .token kind text => if kind.isLayout then none else some (kind, String.ofList text)
  | _ => none

def faultKind? : Piece → Option LexicalFault.Kind
  | .stray c => some (.unexpectedCharacter c)
  | .unclosed _ => some .unterminatedString
  | _ => none

end Piece

namespace Placed

lemma map_piece_all (line : ℕ) (pieces : List Piece) : (all line pieces).map piece = pieces := by
  induction pieces generalizing line with
  | nil => rfl
  | cons p pieces ih => rw [all_cons, List.map_cons, ih]

lemma map_filterMap_all {β γ : Type} {f : Placed → Option β} {g : Piece → Option γ} {h : β → γ}
    (hf : ∀ p, (f p).map h = g p.piece) (line : ℕ) (pieces : List Piece) :
    ((all line pieces).filterMap f).map h = pieces.filterMap g := by
  have hcomp : (fun p => (f p).map h) = g ∘ piece := funext hf
  rw [List.map_filterMap, hcomp, ← List.filterMap_map, map_piece_all]

lemma content_token? (p : Placed) : p.token?.map Token.content = p.piece.content? := by
  obtain ⟨piece, line⟩ := p
  cases piece with
  | token kind text => by_cases hk : kind.isLayout = true <;> simp [token?, Piece.content?, Token.content, hk]
  | _ => rfl

lemma kind_fault? (p : Placed) : p.fault?.map LexicalFault.kind = p.piece.faultKind? := by
  obtain ⟨piece, line⟩ := p
  cases piece <;> rfl

end Placed

lemma Token.content_piece {t : Token} (h : t.kind.Spelled t.lexeme.toList) : t.piece.content? = some t.content := by
  simp [piece, Piece.content?, h.isLayout_eq, content]

lemma tokens_spaced {ts : List Token} (h : ∀ t ∈ ts, t.kind.Spelled t.lexeme.toList) (line : ℕ) :
    ((Placed.all line (Piece.cut (spaced ts).toList)).filterMap Placed.token?).map Token.content =
      ts.map Token.content := by
  have hcontent : ∀ t ∈ ts, t.piece.content? = some t.content := fun t ht => Token.content_piece (h t ht)
  rw [Placed.map_filterMap_all Placed.content_token?, cut_spaced h, filterMap_intersperse rfl, List.filterMap_map,
    ← List.filterMap_eq_map]
  exact List.filterMap_congr hcontent

lemma faults_spaced {ts : List Token} (h : ∀ t ∈ ts, t.kind.Spelled t.lexeme.toList) (line : ℕ) :
    (Placed.all line (Piece.cut (spaced ts).toList)).filterMap Placed.fault? = [] := by
  apply List.map_eq_nil_iff.mp
  rw [Placed.map_filterMap_all Placed.kind_fault?, cut_spaced h, filterMap_intersperse rfl, List.filterMap_map,
    List.filterMap_eq_nil_iff]
  exact fun _ _ => rfl

end Contents

theorem scan_spaced_lexemes (source : String) :
    ∃ s t : Scan, scan source = .ok s ∧ scan (spaced s.tokens.dropLast) = .ok t ∧ t.faults = [] ∧
      t.tokens.map Token.content = s.tokens.map Token.content := by
  obtain ⟨front, line, htokens, hfront⟩ := exists_scanned_tokens source
  have hspelled : ∀ t ∈ front, t.kind.Spelled t.lexeme.toList := fun t ht =>
    spelled_of_mem_tokens (htokens ▸ List.mem_append_left _ ht) (hfront t ht)
  refine ⟨scanned source, _, scan_eq source, scan_eq _, ?_⟩
  rw [htokens, List.dropLast_concat]
  refine ⟨faults_spaced hspelled 1, ?_⟩
  rw [scanned, List.map_append, List.map_append, tokens_spaced hspelled]
  rfl

example : (scan "@1.2.3 =/ /*!==a1\"// \"//").map (spaced ·.tokens.dropLast) =
    .ok "1.2 . 3 = / / * != = a1 \"// \"" := by
  decide +kernel

end Lox
