import Lox.Parse
import Lox.Proofs.Parse.Statements

namespace Lox.Parsed

lemma ofTokens_ends (tokens : List Token) :
    Ends (Parser.declarations (· == .eof) (Parser.recovering false (Layer.above maxNesting).declaration))
      ⟨tokens, 0, []⟩
      (fun body d => Gives .within (Stmt.EachSpelled 0) ⟨tokens, 0, []⟩ body d ∧
        ∃ t rest, d.rest = t :: rest ∧ (t.kind == .eof) = true)
      (Parser.Lost ⟨tokens, 0, []⟩) :=
  Parser.declarations_sound (c := ⟨tokens, 0, []⟩) (Nat.zero_le _) (Layer.above_sound maxNesting 0).declaration
    (fun k hk => ⟨by simpa using hk, by simp⟩)

lemma ofTokens_ok {tokens : List Token} {parsed : Parsed} (h : ofTokens tokens = .ok parsed) :
    (∀ s ∈ parsed.statements, s.Derives 0) ∧ ∃ ts t rest, tokens = ts ++ t :: rest ∧ t.isEof = true ∧
      (∀ u ∈ ts, u.isEof = false) ∧ Covers (Stmt.spellingEach parsed.statements) ts parsed.faults.reverse := by
  have he := ofTokens_ends tokens
  simp only [ofTokens] at h
  split at h
  · rename_i body d hp
    cases h
    obtain ⟨⟨⟨_, ⟨hderives, rfl⟩, ts, fs, hread, hc⟩, -⟩, t, rest, hr, ht⟩ := he.ok hp
    refine ⟨hderives, ts, t, rest, ?_, ht, hread.noEnd, ?_⟩
    · rw [← hr]
      exact hread.rest
    · rw [List.reverse_reverse, hread.faults, List.append_nil]
      exact hc
  · cases h

lemma ofTokens_error {tokens : List Token} {failure : Failure} (h : ofTokens tokens = .error failure) :
    failure = .internal .missingEnd ∧ ∀ t ∈ tokens, t.isEof = false := by
  have he := ofTokens_ends tokens
  simp only [ofTokens] at h
  split at h
  · cases h
  · rename_i stop d hp
    cases h
    obtain ⟨hs, rfl⟩ := he.stop hp
    exact ⟨rfl, (hs.missing _ rfl).2⟩

lemma exists_ofTokens {tokens : List Token} {t : Token} (ht : t ∈ tokens) (he : t.isEof = true) :
    ∃ parsed, ofTokens tokens = .ok parsed := by
  cases h : ofTokens tokens with
  | ok parsed => exact ⟨parsed, rfl⟩
  | error failure => exact absurd ((ofTokens_error h).2 t ht) (by simp [he])

lemma eq_of_append_end {ts us : List Token} {t u : Token} {rest : List Token} (hts : ∀ s ∈ ts, s.isEof = false)
    (hus : ∀ s ∈ us, s.isEof = false) (ht : t.isEof = true) (h : us ++ [u] = ts ++ t :: rest) : ts = us := by
  induction ts generalizing us with
  | nil =>
    cases us with
    | nil => rfl
    | cons v us =>
      obtain ⟨rfl, -⟩ := List.cons.inj h
      simp [ht] at hus
  | cons s ts ih =>
    cases us with
    | nil => simp at h
    | cons v us =>
      obtain ⟨rfl, h'⟩ := List.cons.inj h
      rw [ih (fun s hs => hts s (.tail _ hs)) (fun s hs => hus s (.tail _ hs)) h']

theorem ofTokens_no_loss (front : List Token) (last : Token) (hf : ∀ t ∈ front, t.isEof = false)
    (hl : last.isEof = true) :
    ∃ parsed, ofTokens (front ++ [last]) = .ok parsed ∧
      (∀ s ∈ parsed.statements, s.Derives 0) ∧
      ((Stmt.spellingEach parsed.statements).map Mark.kind).Sublist (front.map Token.kind) ∧
      ((Stmt.spellingEach parsed.statements).map Mark.kind = front.map Token.kind ↔ parsed.faults = []) := by
  obtain ⟨parsed, hp⟩ := exists_ofTokens (List.mem_append_right front (List.mem_singleton_self last)) hl
  obtain ⟨hd, ts, t, rest, ht, he, hn, hc⟩ := ofTokens_ok hp
  obtain rfl := eq_of_append_end hn hf he ht
  exact ⟨parsed, hp, hd, hc.sublist_kinds, by rw [hc.kinds_eq_iff, List.reverse_eq_nil_iff]⟩

def strayTarget : List Token :=
  -- `(a) = b; print`, where the target is no name and the last statement is cut off.
  [⟨.symbol .leftParen, "(", 1⟩, ⟨.identifier "a", "a", 1⟩, ⟨.symbol .rightParen, ")", 1⟩, ⟨.symbol .equal, "=", 1⟩,
    ⟨.identifier "b", "b", 1⟩, ⟨.symbol .semicolon, ";", 1⟩, ⟨.keyword .printKw, "print", 1⟩]

theorem ofTokens_no_loss_strayTarget :
    (∀ t ∈ strayTarget, t.isEof = false) ∧ (Token.endAt 1).isEof = true ∧
      ∃ parsed, ofTokens (strayTarget ++ [Token.endAt 1]) = .ok parsed ∧
        (∀ s ∈ parsed.statements, s.Derives 0) ∧
        ((Stmt.spellingEach parsed.statements).map Mark.kind).Sublist (strayTarget.map Token.kind) ∧
        ((Stmt.spellingEach parsed.statements).map Mark.kind = strayTarget.map Token.kind ↔ parsed.faults = []) := by
  have hf : ∀ t ∈ strayTarget, t.isEof = false := by decide
  exact ⟨hf, rfl, ofTokens_no_loss strayTarget (Token.endAt 1) hf rfl⟩

end Lox.Parsed
