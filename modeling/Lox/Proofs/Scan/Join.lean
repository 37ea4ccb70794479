import Lox.Proofs.Lines
import Lox.Proofs.Scan.Pieces
import Mathlib.Algebra.GroupWithZero.Nat

/-! Sources joined by a newline. Only an open string goes on behind a newline, so a source without one is cut as if it
stood alone, and what follows is cut as if it stood alone further down. -/

namespace Lox

namespace Piece

variable (q : List Char)

def before (cut : Piece × List Char) : Piece × List Char :=
  (cut.1, cut.2 ++ '\n' :: q)

lemma symbol_before (s : Symbol) (c : Char) (rest : List Char) :
    symbol s c (rest ++ '\n' :: q) = before q (symbol s c rest) := by
  cases rest with
  | nil => cases s <;> rfl
  | cons d rest =>
    by_cases hd : d = '='
    · subst hd
      cases s <;> rfl
    · cases s <;> simp [symbol, before, hd]

lemma run_before {p : Char → Bool} (hp : p '\n' = false) (rest : List Char) :
    (rest ++ '\n' :: q).takeWhile p = rest.takeWhile p ∧
      (rest ++ '\n' :: q).dropWhile p = rest.dropWhile p ++ '\n' :: q := by
  apply takeWhile_dropWhile_append
  intro a ha
  cases hd : rest.dropWhile p with
  | nil =>
    rw [hd] at ha
    cases ha
    exact hp
  | cons x tail =>
    rw [hd] at ha
    cases ha
    have hhead := List.head?_dropWhile_not p rest
    simpa [hd] using hhead

lemma comment_before (rest : List Char) : comment (rest ++ '\n' :: q) = before q (comment rest) := by
  obtain ⟨htake, hdrop⟩ := run_before q (p := (· != '\n')) rfl rest
  rw [comment, htake, hdrop]
  rfl

lemma string_before {rest : List Char} (h : ∀ text, (string rest).1 ≠ .unclosed text) :
    string (rest ++ '\n' :: q) = before q (string rest) := by
  cases hd : rest.dropWhile (· != '"') with
  | nil => exact absurd (by rw [string, hd]) (h ('"' :: rest.takeWhile (· != '"')))
  | cons quote tail =>
    have hhead := List.head?_dropWhile_not (· != '"') rest
    obtain ⟨htake, hdrop⟩ := takeWhile_dropWhile_append (q := (· != '"')) (u := rest) (v := '\n' :: q)
      (by simpa [hd] using hhead)
    rw [string, string, htake, hdrop, hd]
    rfl

lemma number_before {c : Char} (hc : c.isDigit = true) (rest : List Char) :
    number c (rest ++ '\n' :: q) = before q (number c rest) := by
  have hx : Char.isDigit '\n' = false := by decide
  obtain ⟨htake, hdrop⟩ := run_before q hx rest
  by_cases h : ∃ d tail, rest.dropWhile Char.isDigit = '.' :: d :: tail ∧ d.isDigit = true
  · obtain ⟨d, tail, htail, hd⟩ := h
    obtain ⟨hftake, hfdrop⟩ := run_before q hx tail
    have hmore : (rest ++ '\n' :: q).dropWhile Char.isDigit = '.' :: d :: (tail ++ '\n' :: q) := by
      rw [hdrop, htail]
      rfl
    rw [number_decimal hc hd htail, number_decimal hc hd hmore, htake, hftake, hfdrop, before]
  · have hinteger : ∀ d tail, rest.dropWhile Char.isDigit = '.' :: d :: tail → ¬d.isDigit = true :=
      fun d tail htail hd => h ⟨d, tail, htail, hd⟩
    -- a point at the end of the source has a newline behind it now, which is no digit
    have hmore : ∀ d tail, (rest ++ '\n' :: q).dropWhile Char.isDigit = '.' :: d :: tail → ¬d.isDigit = true := by
      intro d tail htail
      rw [hdrop] at htail
      rcases hrun : rest.dropWhile Char.isDigit with _ | ⟨point, _ | ⟨e, after⟩⟩
      · rw [hrun] at htail
        cases htail
      · rw [hrun] at htail
        cases htail
        exact Bool.eq_false_iff.mp hx
      · rw [hrun] at htail
        cases htail
        exact hinteger _ _ hrun
    rw [number_integer hc hinteger, number_integer hc hmore, htake, hdrop, before]

lemma word_before (c : Char) (rest : List Char) : word c (rest ++ '\n' :: q) = before q (word c rest) := by
  obtain ⟨htake, hdrop⟩ := run_before q (p := Text.isAlphanumeric) (by decide) rest
  rw [word, htake, hdrop]
  rfl

lemma head?_before (rest : List Char) : (rest ++ '\n' :: q).head? = some '/' ↔ rest.head? = some '/' := by
  cases rest <;> simp

lemma first_before {c : Char} {rest : List Char} (h : ∀ text, (first c rest).1 ≠ .unclosed text) :
    first c (rest ++ '\n' :: q) = before q (first c rest) := by
  -- A look ahead meets the newline where it met the end of the source, and takes neither.
  simp only [first, head?_before] at h ⊢
  by_cases hn : c = '\n'
  · simp only [if_pos hn]
    rfl
  simp only [if_neg hn] at h ⊢
  by_cases hs : isSpace c = true
  · simp only [if_pos hs]
    rfl
  simp only [if_neg hs] at h ⊢
  by_cases hc : c = '/' ∧ rest.head? = some '/'
  · simp only [if_pos hc]
    exact comment_before q rest
  simp only [if_neg hc] at h ⊢
  by_cases hq : c = '"'
  · simp only [if_pos hq] at h ⊢
    exact string_before q h
  simp only [if_neg hq]
  cases Symbol.ofChar? c with
  | some s => exact symbol_before q s c rest
  | none =>
    by_cases hd : c.isDigit = true
    · simp only [if_pos hd]
      exact number_before q hd rest
    by_cases ha : Text.isAlphabetic c = true
    · simp only [if_neg hd, if_pos ha]
      exact word_before q c rest
    · simp only [if_neg hd, if_neg ha]
      rfl

lemma cut_newline (q : List Char) : cut ('\n' :: q) = .token .newline ['\n'] :: cut q :=
  cut_cons '\n' q

lemma cut_append_newline {p : List Char} (h : ∀ text, .unclosed text ∉ cut p) :
    cut (p ++ '\n' :: q) = cut p ++ .token .newline ['\n'] :: cut q := by
  induction p using cut_induction with
  | nil => simpa using cut_newline q
  | cons c rest ih =>
    simp only [cut_cons, List.mem_cons, not_or] at h
    have hfirst := first_before q fun text he => (h text).1 he.symm
    rw [List.cons_append, cut_cons, hfirst, cut_cons, before, ih fun text => (h text).2, List.cons_append]

lemma sum_newlines_cut (source : List Char) : ((cut source).map newlines).sum = source.count '\n' := by
  induction source using cut_induction with
  | nil => simp
  | cons c rest ih =>
    rw [cut_cons, List.map_cons, List.sum_cons, ih, newlines, ← List.count_append, first_text]

end Piece

namespace Placed

def mapLine (f : ℕ → ℕ) (p : Placed) : Placed :=
  { p with line := f p.line }

lemma all_append (line : ℕ) (xs ys : List Piece) :
    all line (xs ++ ys) = all line xs ++ all (line + (xs.map Piece.newlines).sum) ys := by
  induction xs generalizing line with
  | nil => simp
  | cons p xs ih => simp [ih, Nat.add_assoc]

lemma all_add (line k : ℕ) (xs : List Piece) : all (line + k) xs = (all line xs).map (mapLine (· + k)) := by
  induction xs generalizing line with
  | nil => rfl
  | cons p xs ih =>
    have hline : line + k + p.newlines = line + p.newlines + k := by omega
    rw [all_cons, all_cons, List.map_cons, hline, ih, mapLine]

lemma token?_mapLine (f : ℕ → ℕ) (p : Placed) : (p.mapLine f).token? = p.token?.map (Token.mapLine f) := by
  obtain ⟨piece, line⟩ := p
  cases piece with
  | token kind text => by_cases hk : kind.isLayout = true <;> simp [token?, mapLine, hk, Token.mapLine]
  | _ => rfl

end Placed

def LexicalFault.mapLine (f : ℕ → ℕ) (fault : LexicalFault) : LexicalFault :=
  { fault with line := f fault.line }

lemma Placed.fault?_mapLine (f : ℕ → ℕ) (p : Placed) :
    (p.mapLine f).fault? = p.fault?.map (LexicalFault.mapLine f) := by
  obtain ⟨piece, line⟩ := p
  cases piece <;> rfl

lemma Placed.exists_mem_all {line : ℕ} {pieces : List Piece} {p : Piece} (h : p ∈ pieces) :
    ∃ l, ⟨p, l⟩ ∈ all line pieces := by
  induction pieces generalizing line with
  | nil => cases h
  | cons q pieces ih =>
    rw [all_cons]
    cases h with
    | head => exact ⟨_, .head _⟩
    | tail _ h =>
      obtain ⟨l, hl⟩ := @ih (line + q.newlines) h
      exact ⟨l, .tail _ hl⟩

lemma unclosed_not_mem_cut {source : String} (h : ∀ f ∈ (scanned source).faults, f.kind ≠ .unterminatedString)
    (text : List Char) : .unclosed text ∉ Piece.cut source.toList := by
  intro hmem
  obtain ⟨l, hl⟩ := @Placed.exists_mem_all 1 _ _ hmem
  exact h _ (List.mem_filterMap.mpr ⟨_, hl, rfl⟩) rfl

def linesOf (source : String) : ℕ :=
  source.toList.count '\n' + 1

lemma placed_join {p : String} (h : ∀ f ∈ (scanned p).faults, f.kind ≠ .unterminatedString) (q : String) :
    Placed.all 1 (Piece.cut (p ++ "\n" ++ q).toList) = Placed.all 1 (Piece.cut p.toList) ++
      ⟨.token .newline ['\n'], 1 + linesOf p⟩ ::
        (Placed.all 1 (Piece.cut q.toList)).map (Placed.mapLine (· + linesOf p)) := by
  have hsource : (p ++ "\n" ++ q).toList = p.toList ++ '\n' :: q.toList := by simp
  have hline : 1 + p.toList.count '\n' + Piece.newlines (.token .newline ['\n']) = 1 + linesOf p := by
    simp [linesOf, Piece.newlines, Piece.text, Nat.add_assoc]
  rw [hsource, Piece.cut_append_newline _ (unclosed_not_mem_cut h), Placed.all_append, Piece.sum_newlines_cut,
    Placed.all_cons, hline, Placed.all_add]

lemma tokens_join {p : String} (h : ∀ f ∈ (scanned p).faults, f.kind ≠ .unterminatedString) (q : String) :
    (scanned (p ++ "\n" ++ q)).tokens =
      (scanned p).tokens.dropLast ++ (scanned q).tokens.map (Token.mapLine (· + linesOf p)) := by
  have hnewline : Placed.token? ⟨.token .newline ['\n'], 1 + linesOf p⟩ = none := rfl
  have hmoved : Placed.token? ∘ Placed.mapLine (· + linesOf p) =
      fun x => x.token?.map (Token.mapLine (· + linesOf p)) := by
    funext x
    exact x.token?_mapLine _
  have hend : Token.endAt (1 + (p ++ "\n" ++ q).toList.count '\n') =
      (Token.endAt (1 + q.toList.count '\n')).mapLine (· + linesOf p) := by
    simp [Token.endAt, Token.mapLine, linesOf, Nat.add_assoc, Nat.add_comm, Nat.add_left_comm]
  simp only [scanned]
  rw [placed_join h, List.filterMap_append, List.filterMap_cons_none hnewline, List.filterMap_map, hmoved, hend,
    List.dropLast_concat, List.map_append, List.map_filterMap, List.append_assoc]
  rfl

lemma faults_join {p : String} (h : ∀ f ∈ (scanned p).faults, f.kind ≠ .unterminatedString) (q : String) :
    (scanned (p ++ "\n" ++ q)).faults =
      (scanned p).faults ++ (scanned q).faults.map (LexicalFault.mapLine (· + linesOf p)) := by
  have hnewline : Placed.fault? ⟨.token .newline ['\n'], 1 + linesOf p⟩ = none := rfl
  have hmoved : Placed.fault? ∘ Placed.mapLine (· + linesOf p) =
      fun x => x.fault?.map (LexicalFault.mapLine (· + linesOf p)) := by
    funext x
    exact x.fault?_mapLine _
  simp only [scanned]
  rw [placed_join h, List.filterMap_append, List.filterMap_cons_none hnewline, List.filterMap_map, hmoved,
    List.map_filterMap]

/-- A newline ends every piece but an open string, so behind one the scan knows no more than the line it is on. -/
theorem scan_append_newline (p q : String) :
    ∃ s t whole : Scan, scan p = .ok s ∧ scan q = .ok t ∧ scan (p ++ "\n" ++ q) = .ok whole ∧
      ((∀ f ∈ s.faults, f.kind ≠ .unterminatedString) →
        whole.tokens = s.tokens.dropLast ++ t.tokens.map (Token.mapLine (· + (p.toList.count '\n' + 1))) ∧
        whole.faults = s.faults ++ t.faults.map (LexicalFault.mapLine (· + (p.toList.count '\n' + 1)))) :=
  ⟨scanned p, scanned q, scanned (p ++ "\n" ++ q), scan_eq p, scan_eq q, scan_eq _,
    fun h => ⟨tokens_join h q, faults_join h q⟩⟩

def openEnds : String :=
  -- A number before a point, a character that fits nowhere and a comment with a quote, on two lines.
  "1.@\n! // \"x"

def halfString : String :=
  "= 5;\n# \"abc"

theorem scan_append_newline_openEnds :
    ∃ s t whole : Scan, scan openEnds = .ok s ∧ s.faults = [⟨.unexpectedCharacter '@', 1⟩] ∧
      scan halfString = .ok t ∧ scan (openEnds ++ "\n" ++ halfString) = .ok whole ∧
      whole.tokens =
        s.tokens.dropLast ++ t.tokens.map (Token.mapLine (· + (openEnds.toList.count '\n' + 1))) ∧
      whole.faults = s.faults ++ t.faults.map (LexicalFault.mapLine (· + (openEnds.toList.count '\n' + 1))) := by
  obtain ⟨s, t, whole, hs, ht, hwhole, hjoin⟩ := scan_append_newline openEnds halfString
  have hrun : (scan openEnds).map Scan.faults = .ok [⟨.unexpectedCharacter '@', 1⟩] := by decide +kernel
  rw [hs] at hrun
  have hfaults : s.faults = [⟨.unexpectedCharacter '@', 1⟩] := Except.ok.inj hrun
  have h : ∀ f ∈ s.faults, f.kind ≠ .unterminatedString := by
    rw [hfaults]
    simp
  exact ⟨s, t, whole, hs, hfaults, ht, hwhole, hjoin h⟩

end Lox
