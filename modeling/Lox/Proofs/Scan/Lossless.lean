import Lox.Proofs.Scan.Pieces

namespace Lox

lemma ne_quote_of_not_mem {inner : List Char} (h : '"' ∉ inner) : ∀ c ∈ inner, (c != '"') = true := by
  simpa using fun c hc (hn : c = '"') => h (hn ▸ hc)

section Lexemes

inductive IsWord : List Char → Prop
  | mk {c : Char} {rest : List Char} : Text.isAlphabetic c = true → (∀ d ∈ rest, Text.isAlphanumeric d = true) →
      IsWord (c :: rest)

inductive Token.Kind.Spelled : Token.Kind → List Char → Prop
  | symbol (s : Symbol) : Spelled (.symbol s) s.spelling
  | keyword (k : Keyword) : Spelled (.keyword k) k.spelling.toList
  | identifier {word : List Char} : IsWord word → (∀ k : Keyword, k.spelling ≠ String.ofList word) →
      Spelled (.identifier (String.ofList word)) word
  | string {inner : List Char} : '"' ∉ inner → Spelled (.string (String.ofList inner)) ('"' :: inner ++ ['"'])
  | integer {whole : List Char} : IsDigits whole → Spelled (.number (Decimal.ofDigits whole [])) whole
  | decimal {whole fraction : List Char} : IsDigits whole → IsDigits fraction →
      Spelled (.number (Decimal.ofDigits whole fraction)) (whole ++ '.' :: fraction)

lemma Keyword.isWord_spelling (k : Keyword) : IsWord k.spelling.toList := by
  cases k <;> exact .mk (by decide) (List.all_eq_true.mp (by decide))

lemma IsWord.head {c : Char} {rest : List Char} (h : IsWord (c :: rest)) : Text.isAlphabetic c = true := by
  cases h with
  | mk hc _ => exact hc

lemma Symbol.isSome_ofChar?_head {s : Symbol} {c : Char} {rest : List Char} (h : s.spelling = c :: rest) :
    (ofChar? c).isSome = true := by
  cases s <;> cases h <;> rfl

namespace Token.Kind.Spelled

variable {kind : Token.Kind} {text : List Char}

lemma isLayout_eq (h : kind.Spelled text) : kind.isLayout = false := by
  cases h <;> rfl

lemma ne_nil (h : kind.Spelled text) : text ≠ [] := by
  cases h with
  | symbol s => cases s <;> simp [Symbol.spelling]
  | keyword k => cases k <;> decide
  | identifier hw _ => cases hw with | mk => simp
  | string _ => simp
  | integer hw => exact hw.1
  | decimal _ _ => simp

lemma head {c : Char} (h : kind.Spelled (c :: text)) :
    c = '"' ∨ (Symbol.ofChar? c).isSome = true ∨ c.isDigit = true ∨ Text.isAlphabetic c = true := by
  generalize ht : c :: text = whole at h
  cases h with
  | symbol s => exact .inr (.inl (Symbol.isSome_ofChar?_head ht.symm))
  | keyword k =>
    have hw := k.isWord_spelling
    rw [← ht] at hw
    exact .inr (.inr (.inr hw.head))
  | identifier hw _ =>
    rw [← ht] at hw
    exact .inr (.inr (.inr hw.head))
  | string _ => exact .inl (List.cons.inj ht).1
  | integer hw =>
    rw [← ht] at hw
    exact .inr (.inr (.inl (hw.2 c (.head _))))
  | @decimal digits _ hw _ =>
    cases digits with
    | nil => exact absurd rfl hw.1
    | cons d digits =>
      obtain ⟨rfl, -⟩ := List.cons.inj ht
      exact .inr (.inr (.inl (hw.2 c (.head _))))

end Token.Kind.Spelled

end Lexemes

inductive Part where
  | token (t : Token)
  | layout (text : List Char)
  | fault (text : List Char) (f : LexicalFault)

namespace Part

def text : Part → List Char
  | .token t => t.lexeme.toList
  | .layout text => text
  | .fault text _ => text

def token? : Part → Option Token
  | .token t => some t
  | _ => none

def fault? : Part → Option LexicalFault
  | .fault _ f => some f
  | _ => none

def IsSpace (c : Char) : Prop :=
  c = ' ' ∨ c = '\r' ∨ c = '\t' ∨ c = '\n'

inductive Stands (rest : List Char) : Part → Prop
  | token {t : Token} : t.kind.Spelled t.lexeme.toList → Stands rest (.token t)
  | space {c : Char} : IsSpace c → Stands rest (.layout [c])
  | comment {inner : List Char} : '\n' ∉ inner → (∀ c ∈ rest.head?, c = '\n') →
      Stands rest (.layout ('/' :: '/' :: inner))
  | stray {c : Char} {line : ℕ} : ¬IsSpace c → (∀ kind text, ¬Token.Kind.Spelled kind (c :: text)) →
      Stands rest (.fault [c] ⟨.unexpectedCharacter c, line⟩)
  | unclosed {inner : List Char} {line : ℕ} : '"' ∉ inner → rest = [] →
      Stands rest (.fault ('"' :: inner) ⟨.unterminatedString, line⟩)

lemma Stands.ne_nil {rest : List Char} {p : Part} (h : p.Stands rest) : p.text ≠ [] := by
  cases h with
  | token ht => exact ht.ne_nil
  | _ => simp [text]

end Part

namespace Placed

def part (p : Placed) : Part :=
  match p.token?, p.fault? with
  | some t, _ => .token t
  | none, some f => .fault p.piece.text f
  | none, none => .layout p.piece.text

lemma text_part (p : Placed) : p.part.text = p.piece.text := by
  obtain ⟨piece, line⟩ := p
  cases piece with
  | token kind text => by_cases hk : kind.isLayout = true <;> simp [part, token?, fault?, hk, Part.text, Piece.text]
  | _ => rfl

lemma token?_part (p : Placed) : p.part.token? = p.token? := by
  rw [part]
  cases p.token? with
  | some t => rfl
  | none => cases p.fault? <;> rfl

lemma fault?_part (p : Placed) : p.part.fault? = p.fault? := by
  obtain ⟨piece, line⟩ := p
  cases piece with
  | token kind text => by_cases hk : kind.isLayout = true <;> simp [part, token?, fault?, hk, Part.fault?]
  | _ => rfl

end Placed

namespace Piece

variable {c : Char} {rest : List Char}

def Sound (cut : Piece × List Char) : Prop :=
  ∀ line, (Placed.part ⟨cut.1, line⟩).Stands cut.2

lemma Sound.token {kind : Token.Kind} {text : List Char} (h : kind.Spelled text) (rest : List Char) :
    Sound (.token kind text, rest) := by
  intro line
  have hpart : Placed.part ⟨.token kind text, line⟩ = .token ⟨kind, String.ofList text, line⟩ := by
    simp [Placed.part, Placed.token?, h.isLayout_eq]
  rw [hpart]
  exact .token (by simpa using h)

lemma symbol_sound {s : Symbol} (h : s.spelling = [c]) (rest : List Char) : Sound (symbol s c rest) := by
  unfold symbol
  split
  · rename_i t rest ht
    have hspelling : t.spelling = [c, '='] := by rw [Symbol.spelling_withEqual ht, h, List.singleton_append]
    exact .token (hspelling ▸ .symbol t) rest
  · exact .token (h ▸ .symbol s) _

lemma not_mem_takeWhile_bne (d : Char) (l : List Char) : d ∉ l.takeWhile (· != d) := by
  intro hd
  simpa using List.mem_takeWhile_imp hd

lemma head?_dropWhile_bne {d e : Char} {l : List Char} (h : e ∈ (l.dropWhile (· != d)).head?) : e = d := by
  have hhead := List.head?_dropWhile_not (· != d) l
  rw [h] at hhead
  simpa using hhead

lemma comment_sound (h : rest.head? = some '/') : Sound (comment rest) := by
  intro line
  obtain ⟨tail, rfl⟩ := List.head?_eq_some_iff.mp h
  have htake : ('/' :: tail).takeWhile (· != '\n') = '/' :: tail.takeWhile (· != '\n') := rfl
  rw [comment, htake]
  exact .comment (not_mem_takeWhile_bne _ _) fun _ => head?_dropWhile_bne

lemma string_sound (rest : List Char) : Sound (string rest) := by
  have hinner := not_mem_takeWhile_bne '"' rest
  unfold string
  split
  · intro line
    exact .unclosed hinner rfl
  · rename_i quote tail hd
    have hquote : quote = '"' := head?_dropWhile_bne (l := rest) (by rw [hd]; rfl)
    rw [hquote]
    exact .token (.string hinner) tail

lemma ofWord_spelled {word : List Char} (h : IsWord word) : (Token.Kind.ofWord (String.ofList word)).Spelled word := by
  rw [Token.Kind.ofWord]
  cases hk : Keyword.ofSpelling? (String.ofList word) with
  | some k =>
    have hword := congrArg String.toList (Keyword.ofSpelling?_eq_some_iff.mp hk)
    rw [String.toList_ofList] at hword
    rw [← hword]
    exact .keyword k
  | none =>
    refine .identifier h fun k hspelling => ?_
    rw [Keyword.ofSpelling?_eq_some_iff.mpr hspelling] at hk
    cases hk

lemma word_sound (hc : Text.isAlphabetic c = true) (rest : List Char) : Sound (word c rest) :=
  .token (ofWord_spelled (.mk hc fun _ => List.mem_takeWhile_imp)) _

lemma isSpace_iff : Part.IsSpace c ↔ c = '\n' ∨ isSpace c = true := by
  simp only [Part.IsSpace, isSpace, Bool.or_eq_true, beq_iff_eq, or_assoc, or_comm, or_left_comm]

lemma stray_sound (hn : c ≠ '\n') (hs : ¬isSpace c = true) (hq : c ≠ '"') (ho : Symbol.ofChar? c = none)
    (hd : ¬c.isDigit = true) (ha : ¬Text.isAlphabetic c = true) (rest : List Char) : Sound (.stray c, rest) := by
  intro line
  refine .stray ?_ fun kind text h => ?_
  · rw [isSpace_iff]
    exact not_or.mpr ⟨hn, hs⟩
  · rcases h.head with h | h | h | h
    · exact hq h
    · simp [ho] at h
    · exact hd h
    · exact ha h

lemma first_sound (c : Char) (rest : List Char) : Sound (first c rest) := by
  apply first_cases (P := Sound)
  case newline => exact fun h _ => .space (isSpace_iff.mpr (.inl h))
  case blank => exact fun _ h _ => .space (isSpace_iff.mpr (.inr h))
  case comment => exact fun _ => comment_sound
  case string => exact fun _ => string_sound rest
  case symbol => exact fun s hs _ => symbol_sound hs rest
  case integer => exact fun hc _ => .token (.integer (isDigits_takeWhile hc rest)) _
  case decimal =>
    exact fun d tail hc hd _ => .token (.decimal (isDigits_takeWhile hc rest) (isDigits_takeWhile hd tail)) _
  case word => exact fun hc => word_sound hc rest
  case stray => exact fun hn hs hq ho hd ha => stray_sound hn hs hq ho hd ha rest

end Piece

def parts (line : ℕ) (source : List Char) : List Part :=
  (Placed.all line (Piece.cut source)).map Placed.part

lemma parts_cons (line : ℕ) (c : Char) (rest : List Char) :
    parts line (c :: rest) = Placed.part ⟨(Piece.first c rest).1, line + (Piece.first c rest).1.newlines⟩ ::
      parts (line + (Piece.first c rest).1.newlines) (Piece.first c rest).2 := by
  rw [parts, Piece.cut_cons, Placed.all_cons, List.map_cons, parts]

lemma flatMap_text_parts (line : ℕ) (source : List Char) : (parts line source).flatMap Part.text = source := by
  induction source using Piece.cut_induction generalizing line with
  | nil => simp [parts]
  | cons c rest ih => rw [parts_cons, List.flatMap_cons, ih, Placed.text_part, Piece.first_text]

lemma forall_suffix_parts {P : Part → List Char → Prop}
    (hfirst : ∀ c rest line, P (Placed.part ⟨(Piece.first c rest).1, line⟩) (Piece.first c rest).2) {line : ℕ}
    {source : List Char} {p : Part} {after : List Part} (h : p :: after <:+ parts line source) :
    P p (after.flatMap Part.text) := by
  induction source using Piece.cut_induction generalizing line with
  | nil => simp [parts] at h
  | cons c rest ih =>
    rw [parts_cons, List.suffix_cons_iff] at h
    rcases h with h | h
    · obtain ⟨rfl, rfl⟩ := List.cons.inj h
      rw [flatMap_text_parts]
      exact hfirst c rest _
    · exact ih h

lemma stands_of_suffix_parts {line : ℕ} {source : List Char} {p : Part} {after : List Part}
    (h : p :: after <:+ parts line source) : p.Stands (after.flatMap Part.text) :=
  forall_suffix_parts (P := fun p rest => p.Stands rest) Piece.first_sound h

lemma filterMap_token?_parts (line : ℕ) (source : List Char) :
    (parts line source).filterMap Part.token? = (Placed.all line (Piece.cut source)).filterMap Placed.token? := by
  rw [parts, List.filterMap_map]
  congr 1
  exact funext Placed.token?_part

lemma filterMap_fault?_parts (line : ℕ) (source : List Char) :
    (parts line source).filterMap Part.fault? = (Placed.all line (Piece.cut source)).filterMap Placed.fault? := by
  rw [parts, List.filterMap_map]
  congr 1
  exact funext Placed.fault?_part

lemma spelled_or_end_of_mem_tokens {source : String} {t : Token} (h : t ∈ (scanned source).tokens) :
    t.kind.Spelled t.lexeme.toList ∨ ∃ line, t = Token.endAt line := by
  rw [scanned, ← filterMap_token?_parts, List.mem_append] at h
  rcases h with h | h
  · obtain ⟨p, hp, ht⟩ := List.mem_filterMap.mp h
    obtain ⟨before, after, hparts⟩ := List.append_of_mem hp
    cases stands_of_suffix_parts ⟨before, hparts.symm⟩ with
    | token hspelled =>
      cases ht
      exact .inl hspelled
    | _ => cases ht
  · exact .inr ⟨_, List.mem_singleton.mp h⟩

lemma spelled_of_mem_tokens {source : String} {t : Token} (h : t ∈ (scanned source).tokens) (ht : t.isEof = false) :
    t.kind.Spelled t.lexeme.toList := by
  rcases spelled_or_end_of_mem_tokens h with hs | ⟨line, rfl⟩
  · exact hs
  · rw [Token.isEof_endAt] at ht
    cases ht

theorem scan_lossless (source : String) :
    ∃ (s : Scan) (parts : List Part), scan source = .ok s ∧
      parts.flatMap Part.text = source.toList ∧
      (∀ p ∈ parts, p.text ≠ []) ∧
      (∀ p after, p :: after <:+ parts → p.Stands (after.flatMap Part.text)) ∧
      (∃ line, s.tokens = parts.filterMap Part.token? ++ [Token.endAt line]) ∧
      s.faults = parts.filterMap Part.fault? := by
  have hstands : ∀ p after, p :: after <:+ parts 1 source.toList → p.Stands (after.flatMap Part.text) :=
    fun _ _ => stands_of_suffix_parts
  refine ⟨scanned source, parts 1 source.toList, scan_eq source, flatMap_text_parts 1 _, ?_, hstands,
    ⟨1 + source.toList.count '\n', ?_⟩, ?_⟩
  · intro p hp
    obtain ⟨before, after, hparts⟩ := List.append_of_mem hp
    exact (hstands p after ⟨before, hparts.symm⟩).ne_nil
  · rw [filterMap_token?_parts, scanned]
  · rw [filterMap_fault?_parts, scanned]

end Lox
