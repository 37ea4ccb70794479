import Lox.Proofs.Scan.Lossless

/-! The lines of tokens and lexical faults. A part of a source is on the line where it ends, and only newlines before
that place count, wherever they stand: between tokens, in strings and behind comments. -/

namespace Lox

def lineAfter (text : List Char) : ℕ :=
  1 + text.count '\n'

lemma lineAfter_mono {text source : List Char} (h : text <+: source) : lineAfter text ≤ lineAfter source :=
  Nat.add_le_add_left (h.sublist.count_le '\n') 1

namespace Placed

lemma line_of_token? {p : Placed} {t : Token} (h : p.token? = some t) : t.line = p.line := by
  obtain ⟨piece, line⟩ := p
  cases piece with
  | token kind text =>
    simp only [token?] at h
    split at h <;> cases h
    rfl
  | _ => cases h

lemma line_of_fault? {p : Placed} {f : LexicalFault} (h : p.fault? = some f) : f.line = p.line := by
  obtain ⟨piece, line⟩ := p
  cases piece <;> cases h <;> rfl

lemma le_line_of_mem_all {line : ℕ} {pieces : List Piece} {p : Placed} (h : p ∈ all line pieces) : line ≤ p.line := by
  induction pieces generalizing line with
  | nil => simp at h
  | cons q pieces ih =>
    rw [all_cons, List.mem_cons] at h
    rcases h with rfl | h
    · exact Nat.le_add_right line q.newlines
    · exact (Nat.le_add_right line q.newlines).trans (ih h)

lemma pairwise_all (line : ℕ) (pieces : List Piece) : (all line pieces).Pairwise (·.line ≤ ·.line) := by
  induction pieces generalizing line with
  | nil => exact .nil
  | cons p pieces ih =>
    rw [all_cons]
    exact .cons (fun q hq => le_line_of_mem_all hq) (ih _)

end Placed

lemma exists_part_of_parts {line : ℕ} {source : List Char} {before after : List Part} {p : Part}
    (h : parts line source = before ++ p :: after) :
    ∃ piece, p = Placed.part ⟨piece, line + (before.flatMap Part.text ++ p.text).count '\n'⟩ := by
  induction source using Piece.cut_induction generalizing line before with
  | nil => simp [parts] at h
  | cons c rest ih =>
    rw [parts_cons] at h
    cases before with
    | nil =>
      obtain ⟨rfl, -⟩ := List.cons.inj h
      exact ⟨(Piece.first c rest).1, by rw [Placed.text_part]; rfl⟩
    | cons q before =>
      obtain ⟨rfl, hrest⟩ := List.cons.inj h
      obtain ⟨piece, hp⟩ := ih hrest
      refine ⟨piece, ?_⟩
      rw [List.flatMap_cons, Placed.text_part, List.append_assoc, List.count_append, ← Nat.add_assoc]
      exact hp

section

variable {source : List Char} {before after : List Part}

lemma prefix_of_parts {p : Part} (h : parts 1 source = before ++ p :: after) :
    before.flatMap Part.text ++ p.text <+: source := by
  have hsource := flatMap_text_parts 1 source
  rw [h, List.flatMap_append, List.flatMap_cons, ← List.append_assoc] at hsource
  exact ⟨_, hsource⟩

lemma stands_of_parts {p : Part} (h : parts 1 source = before ++ p :: after) :
    p.Stands (after.flatMap Part.text) :=
  stands_of_suffix_parts ⟨before, h.symm⟩

lemma line_token_of_parts {t : Token} (h : parts 1 source = before ++ .token t :: after) :
    t.line = lineAfter (before.flatMap Part.text ++ t.lexeme.toList) := by
  obtain ⟨piece, hp⟩ := exists_part_of_parts h
  exact Placed.line_of_token? (by rw [← Placed.token?_part, ← hp]; rfl)

lemma line_fault_of_parts {text : List Char} {f : LexicalFault}
    (h : parts 1 source = before ++ .fault text f :: after) :
    f.line = lineAfter (before.flatMap Part.text ++ text) := by
  obtain ⟨piece, hp⟩ := exists_part_of_parts h
  exact Placed.line_of_fault? (by rw [← Placed.fault?_part, ← hp]; rfl)

lemma line_stray_of_parts {text : List Char} {c : Char} {line : ℕ}
    (h : parts 1 source = before ++ .fault text ⟨.unexpectedCharacter c, line⟩ :: after) :
    text = [c] ∧ line = lineAfter (before.flatMap Part.text) := by
  have hline := line_fault_of_parts h
  cases stands_of_parts h with
  | stray hspace _ =>
    have hne : ¬(c == '\n') = true := fun hc => hspace (.inr (.inr (.inr (eq_of_beq hc))))
    refine ⟨rfl, hline.trans ?_⟩
    rw [lineAfter, List.count_append, List.count_singleton, if_neg hne, Nat.add_zero, lineAfter]

lemma eq_nil_of_parts_unclosed {text : List Char} {line : ℕ}
    (h : parts 1 source = before ++ .fault text ⟨.unterminatedString, line⟩ :: after) : after = [] := by
  cases stands_of_parts h with
  | unclosed _ hnil =>
    cases after with
    | nil => rfl
    | cons p after =>
      rw [List.append_cons] at h
      rw [List.flatMap_cons, List.append_eq_nil_iff] at hnil
      exact absurd hnil.1 (stands_of_parts h).ne_nil

lemma line_unclosed_of_parts {text : List Char} {line : ℕ}
    (h : parts 1 source = before ++ .fault text ⟨.unterminatedString, line⟩ :: after) : line = lineAfter source := by
  obtain rfl := eq_nil_of_parts_unclosed h
  have hline := line_fault_of_parts h
  have hsource := flatMap_text_parts 1 source
  rw [h, List.flatMap_append, List.flatMap_singleton] at hsource
  rw [← hsource]
  exact hline

end

lemma exists_parts_of_mem_tokens {source : List Char} {t : Token}
    (h : t ∈ (parts 1 source).filterMap Part.token?) :
    ∃ before after, parts 1 source = before ++ .token t :: after := by
  obtain ⟨p, hp, ht⟩ := List.mem_filterMap.mp h
  cases p with
  | token u =>
    cases ht
    exact List.append_of_mem hp
  | layout text => cases ht
  | fault text f => cases ht

lemma exists_parts_of_faults {source : List Char} {fs gs : List LexicalFault} {f : LexicalFault}
    (h : (parts 1 source).filterMap Part.fault? = fs ++ f :: gs) :
    ∃ before text after, parts 1 source = before ++ .fault text f :: after ∧ after.filterMap Part.fault? = gs := by
  obtain ⟨front, back, hparts, -, hback⟩ := List.filterMap_eq_append_iff.mp h
  obtain ⟨between, p, after, rfl, -, hp, hafter⟩ := List.filterMap_eq_cons_iff.mp hback
  cases p with
  | fault text g =>
    cases hp
    exact ⟨front ++ between, text, after, by rw [hparts, List.append_assoc], hafter⟩
  | token t => cases hp
  | layout text => cases hp

lemma pairwise_line_tokens (source : String) : (scanned source).tokens.Pairwise (·.line ≤ ·.line) := by
  rw [scanned, List.pairwise_append]
  refine ⟨?_, List.pairwise_singleton _ _, ?_⟩
  · apply (Placed.pairwise_all 1 _).filterMap
    intro p q hpq t ht u hu
    rwa [Placed.line_of_token? ht, Placed.line_of_token? hu]
  · intro t ht u hu
    rw [← filterMap_token?_parts] at ht
    obtain ⟨before, after, hparts⟩ := exists_parts_of_mem_tokens ht
    rw [List.mem_singleton.mp hu, line_token_of_parts hparts]
    exact lineAfter_mono (prefix_of_parts hparts)

lemma pairwise_line_faults (source : String) : (scanned source).faults.Pairwise (·.line ≤ ·.line) := by
  apply (Placed.pairwise_all 1 _).filterMap
  intro p q hpq f hf g hg
  rwa [Placed.line_of_fault? hf, Placed.line_of_fault? hg]

theorem scan_lines_exact (source : String) :
    ∃ (s : Scan) (parts : List Part), scan source = .ok s ∧
      parts.flatMap Part.text = source.toList ∧
      (∀ p after, p :: after <:+ parts → p.Stands (after.flatMap Part.text)) ∧
      s.tokens = parts.filterMap Part.token? ++ [Token.endAt (lineAfter source.toList)] ∧
      s.faults = parts.filterMap Part.fault? ∧
      (∀ before t after, parts = before ++ .token t :: after →
        t.line = lineAfter (before.flatMap Part.text ++ t.lexeme.toList)) ∧
      (∀ before text c line after, parts = before ++ .fault text ⟨.unexpectedCharacter c, line⟩ :: after →
        text = [c] ∧ line = lineAfter (before.flatMap Part.text)) ∧
      (∀ fs f gs, s.faults = fs ++ f :: gs → f.kind = .unterminatedString →
        f.line = lineAfter source.toList ∧ gs = []) ∧
      s.tokens.Pairwise (·.line ≤ ·.line) ∧
      s.faults.Pairwise (·.line ≤ ·.line) := by
  have hfaults : (scanned source).faults = (parts 1 source.toList).filterMap Part.fault? := by
    rw [filterMap_fault?_parts, scanned]
  refine ⟨scanned source, parts 1 source.toList, scan_eq source, flatMap_text_parts 1 _,
    fun _ _ => stands_of_suffix_parts, ?_, hfaults, fun _ _ _ => line_token_of_parts,
    fun _ _ _ _ _ => line_stray_of_parts, ?_, pairwise_line_tokens source, pairwise_line_faults source⟩
  · rw [filterMap_token?_parts, scanned, lineAfter]
  · rintro fs ⟨kind, line⟩ gs hf rfl
    obtain ⟨before, text, after, hparts, rfl⟩ := exists_parts_of_faults (hfaults ▸ hf)
    refine ⟨line_unclosed_of_parts hparts, ?_⟩
    rw [eq_nil_of_parts_unclosed hparts, List.filterMap_nil]

end Lox
