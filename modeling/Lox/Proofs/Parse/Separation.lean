import Lox.Proofs.Parse.Locality
import Lox.Proofs.Parse.RoundTrip

/-! Declarations are read one by one. Where one ends, by itself or behind a fault, neither a token ahead nor the depth
nor a fault is carried over to the next. So tokens that parse without a fault can stand before any others. -/

namespace Lox

open Lox.Layer

namespace Parser

section

variable {ends : Token.Kind → Bool} {p : Parser (Option Stmt)}

lemma declarationsWithin_eq_map (done : Array Stmt) (n : ℕ) :
    declarationsWithin ends p done n = (done ++ ·) <$> declarationsWithin ends p #[] n := by
  induction n generalizing done with
  | zero => rfl
  | succ n ih =>
    rw [declarationsWithin, declarationsWithin, map_bind]
    congr 1
    funext t
    split
    · rw [map_pure, Array.append_empty]
    · rw [map_bind]
      congr 1
      funext o
      cases o with
      | none => exact ih done
      | some s =>
        dsimp only
        rw [ih (done.push s), ih (#[].push s), Functor.map_map]
        congr 1
        funext body
        simp

lemma declarations_cons (hprogress : Progresses ends p) {c d : Cursor} {t : Token} {rest : List Token}
    {o : Option Stmt} (hc : c.rest = t :: rest) (ht : ends t.kind = false) (hp : p c = .ok o d) :
    declarations ends p c = ((o.toList ++ ·) <$> declarations ends p) d := by
  have hpeek : peek c = .ok t c := by simp only [peek, hc]
  have hlt : d.rest.length < c.rest.length := (hprogress c t rest hc ht).ok hp
  obtain ⟨k, hk⟩ : ∃ k, rest.length = d.rest.length + k := by
    rw [hc, List.length_cons] at hlt
    exact ⟨rest.length - d.rest.length, by omega⟩
  have hfirst : declarationsWithin ends p #[] c.rest.length c =
      declarationsWithin ends p o.toArray rest.length d := by
    rw [hc, List.length_cons, declarationsWithin, bind_eq_of_ok hpeek, ht, if_neg Bool.false_ne_true,
      bind_eq_of_ok hp]
    cases o <;> rfl
  simp only [declarations, Functor.map, EStateM.map, hfirst]
  -- the bound is the length of `rest`, which is more than what is left needs
  rw [declarationsWithin_eq_map, hk]
  simp only [Functor.map, EStateM.map, declarationsWithin_eq hprogress #[] le_rfl k]
  cases declarationsWithin ends p #[] d.rest.length d with
  | ok body e => simp
  | error e d => rfl

end

lemma recovering_of_ok {inBlock : Bool} {p : Parser Stmt} {c d : Cursor} {s : Stmt} (h : p c = .ok s d) :
    recovering inBlock p c = .ok (some s) d := by
  simp only [recovering, h]

lemma recovering_of_fault {inBlock : Bool} {p : Parser Stmt} {c d : Cursor} {f : SyntaxFault} {rest : List Token}
    (h : p c = .error (.fault f) d) (hb : boundary inBlock 0 d.rest = some rest) :
    recovering inBlock p c = .ok none ⟨rest, c.depth, f :: d.faults⟩ := by
  simp only [recovering, h, bind, EStateM.bind, record, setDepth, synchronize, hb]
  rfl

lemma recovering_seals (inBlock : Bool) {p : Parser Stmt} (hp : Local p) (ht : Takes p) :
    Seals (recovering inBlock p) := by
  intro c o d h us gs
  have hends : Ends (recovering inBlock p) c
      (fun o d => recovering inBlock p (c.framed us gs) = .ok o (d.framed us gs)) fun _ _ => True := by
    apply ends_recovering
    · exact fun s d hs => recovering_of_ok (ht.seals c s d hs us gs)
    · intro f d rest hf hb
      have hleft : d.rest ≠ [] := by
        intro hnil
        rw [hnil] at hb
        cases hb
      exact recovering_of_fault ((hp.stop hf).2 hleft us gs) (boundary_append hb us)
    · exact fun _ _ _ _ => trivial
    · exact fun _ _ _ => trivial
  exact hends.ok h

end Parser

namespace Parsed

abbrev unit : Parser (Option Stmt) :=
  Parser.recovering false (above maxNesting).declaration

lemma declarations_framed {tokens : List Token} {parsed : Parsed} (h : ofTokens tokens = .ok parsed)
    (gs : List SyntaxFault) : ∃ d, Parser.declarations (· == .eof) unit ⟨tokens, 0, gs⟩ = .ok parsed.statements d ∧
      d.faults = parsed.faults.reverse ++ gs := by
  have hends := ofTokens_ends tokens
  simp only [ofTokens] at h
  split at h
  · rename_i body d hp
    cases h
    obtain ⟨-, u, rest, hd, -⟩ := hends.ok hp
    have hsame := ((unit_local maxNesting).ok hp).2 (by simp [hd]) [] gs
    simp only [Cursor.framed, List.append_nil, List.nil_append] at hsame
    exact ⟨_, hsame, by rw [List.reverse_reverse]⟩
  · cases h

lemma ofTokens_append_of_unit {ts rest : List Token} {o : Option Stmt} {fs : List SyntaxFault} {parsed : Parsed}
    (hts : ∃ t ∈ ts.head?, t.isEof = false) (h : unit ⟨ts, 0, []⟩ = .ok o ⟨[], 0, fs⟩)
    (hrest : ofTokens rest = .ok parsed) :
    ofTokens (ts ++ rest) = .ok ⟨o.toList ++ parsed.statements, fs.reverse ++ parsed.faults⟩ := by
  obtain ⟨t, hhead, ht⟩ := hts
  obtain ⟨us, rfl⟩ : ∃ us, ts = t :: us := ⟨_, List.eq_cons_of_mem_head? hhead⟩
  have hfirst := Parser.recovering_seals false (above_local maxNesting) (above_takes maxNesting) _ _ _ h rest []
  simp only [Cursor.framed, List.append_nil, List.nil_append] at hfirst
  obtain ⟨d, hd, hfaults⟩ := declarations_framed hrest fs
  have hall := Parser.declarations_cons (unit_progresses maxNesting) rfl ht hfirst
  rw [ofTokens, hall, Parser.map_ok hd]
  simp only [hfaults, List.reverse_append, List.reverse_reverse]

lemma ofTokens_append_of_spells (program : List Stmt) {ts rest : List Token} {parsed : Parsed}
    (hp : ∀ s ∈ program, s.Derives 0) (hs : Spells (Stmt.spellingEach program) ts)
    (hrest : ofTokens rest = .ok parsed) :
    ofTokens (ts ++ rest) = .ok ⟨program ++ parsed.statements, parsed.faults⟩ := by
  induction program generalizing ts with
  | nil =>
    obtain rfl := List.forall₂_nil_left_iff.mp hs
    exact hrest
  | cons s program ih =>
    obtain ⟨us, vs, rfl, hu, hv⟩ := Spells.exists_append hs
    have hder := hp s (List.mem_cons_self ..)
    have hfirst := hder.reads maxNesting us [] [] rfl hu
    obtain ⟨u, us, rfl, heof, -⟩ := hder.head hu
    rw [List.append_nil] at hfirst
    have hothers := ih (fun s hs => hp s (List.mem_cons_of_mem _ hs)) hv
    rw [List.append_assoc]
    exact ofTokens_append_of_unit ⟨u, rfl, by simpa [Token.isEof] using heof⟩ (Parser.recovering_of_ok hfirst) hothers

/-- The last token can only be an end mark, since the tokens before it have none. -/
theorem ofTokens_clean_append (front rest : List Token) (last : Token) (program : List Stmt)
    (hf : ∀ t ∈ front, t.isEof = false) (hclean : ofTokens (front ++ [last]) = .ok ⟨program, []⟩)
    (hrest : ∃ t ∈ rest, t.isEof = true) :
    ∃ parsed, ofTokens rest = .ok parsed ∧
      ofTokens (front ++ rest) = .ok ⟨program ++ parsed.statements, parsed.faults⟩ := by
  obtain ⟨t, ht, he⟩ := hrest
  obtain ⟨parsed, hparsed⟩ := exists_ofTokens ht he
  obtain ⟨hder, ts, u, _, hts, hu, hno, _, -, hspells, hall⟩ := ofTokens_ok hclean
  obtain rfl := hall.mpr rfl
  obtain rfl := eq_of_append_end hno hf hu hts
  exact ⟨parsed, hparsed, ofTokens_append_of_spells program hder hspells hparsed⟩

def blockFirst : List Token :=
  -- `{var b;}`
  [⟨.symbol .leftBrace, "\x7b", 1⟩, ⟨.keyword .varKw, "var", 1⟩, ⟨.identifier "b", "b", 1⟩,
    ⟨.symbol .semicolon, ";", 1⟩, ⟨.symbol .rightBrace, "\x7d", 1⟩]

theorem ofTokens_clean_append_blockFirst :
    (∀ t ∈ blockFirst, t.isEof = false) ∧
      ofTokens (blockFirst ++ [Token.endAt 1]) = .ok ⟨[.block [.var ⟨.identifier "b", "b", 1⟩ none]], []⟩ ∧
      (∃ t ∈ strayTarget ++ [Token.endAt 1], t.isEof = true) ∧
      ofTokens (blockFirst ++ (strayTarget ++ [Token.endAt 1])) =
        .ok ⟨[.block [.var ⟨.identifier "b", "b", 1⟩ none], .expression (.group (.variable ⟨.identifier "a", "a", 1⟩))],
          [⟨.invalidAssignmentTarget, 1, .atLexeme "="⟩, ⟨.expectExpression, 1, .atEnd⟩]⟩ := by
  have hf : ∀ t ∈ blockFirst, t.isEof = false := by decide
  have hclean : ofTokens (blockFirst ++ [Token.endAt 1]) =
      .ok ⟨[.block [.var ⟨.identifier "b", "b", 1⟩ none]], []⟩ := by decide +kernel
  have hend : ∃ t ∈ strayTarget ++ [Token.endAt 1], t.isEof = true := by decide
  have hrest : ofTokens (strayTarget ++ [Token.endAt 1]) =
      .ok ⟨[.expression (.group (.variable ⟨.identifier "a", "a", 1⟩))],
        [⟨.invalidAssignmentTarget, 1, .atLexeme "="⟩, ⟨.expectExpression, 1, .atEnd⟩]⟩ := by decide +kernel
  obtain ⟨parsed, hparsed, happend⟩ := ofTokens_clean_append blockFirst _ (Token.endAt 1) _ hf hclean hend
  obtain rfl := Except.ok.inj (hparsed.symm.trans hrest)
  exact ⟨hf, hclean, hend, happend⟩

end Parsed

end Lox
