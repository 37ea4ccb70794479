import Lox.Eval
import Lox.Proofs.Parse.Separation

/-! Parentheses around every compound expression. They override precedence and grouping, so any tree can be spelled,
whatever its shape, and since a group means what is inside, the tree that is read means the same. -/

namespace Lox

open Lox.Parser Lox.Layer

namespace Expr

inductive Legal : Expr → Prop
  | literal (v : Value) : Legal (.literal v)
  | name {t : Token} : t.kind.isIdentifier = true → Legal (.variable t)
  | assign {t : Token} {value : Expr} : t.kind.isIdentifier = true → Legal value → Legal (.assign t value)
  | unary {op : Token} {operand : Expr} : isUnaryOperator op.kind = true → Legal operand → Legal (.unary op operand)
  | binary {left right : Expr} {op : Token} (tier : Tier) : tier.isOperator op.kind = true → Legal left → Legal right →
      Legal (.binary left op right)
  | group {inner : Expr} : Legal inner → Legal (.group inner)

def parenthesised : Expr → Expr
  | .literal v => .literal v
  | .variable name => .variable name
  | .assign name value => .group (.assign name value.parenthesised)
  | .unary op operand => .group (.unary op operand.parenthesised)
  | .binary left op right => .group (.binary left.parenthesised op right.parenthesised)
  | .group inner => .group inner.parenthesised

def ungrouped : Expr → Expr
  | .literal v => .literal v
  | .variable name => .variable name
  | .assign name value => .assign name value.ungrouped
  | .unary op operand => .unary op operand.ungrouped
  | .binary left op right => .binary left.ungrouped op right.ungrouped
  | .group inner => inner.ungrouped

/-- The levels that the parenthesised tree nests: one for each pair of parentheses, each unary operator, each `=`, and
each binary operator before its right operand. -/
def levels : Expr → ℕ
  | .literal _ | .variable _ => 0
  | .assign _ value => value.levels + 2
  | .unary _ operand => operand.levels + 2
  | .binary left _ right => max left.levels (right.levels + 1) + 1
  | .group inner => inner.levels + 1

lemma ungrouped_parenthesised (e : Expr) : e.parenthesised.ungrouped = e.ungrouped := by
  induction e with
  | literal v => rfl
  | «variable» name => rfl
  | assign name value ih => simp only [parenthesised, ungrouped, ih]
  | unary op operand ih => simp only [parenthesised, ungrouped, ih]
  | binary left op right ihl ihr => simp only [parenthesised, ungrouped, ihl, ihr]
  | group inner ih => simp only [parenthesised, ungrouped, ih]

lemma eval_ungrouped (e : Expr) : e.ungrouped.eval = e.eval := by
  induction e with
  | literal v => rfl
  | «variable» name => rfl
  | assign name value ih => simp only [ungrouped, eval, ih]
  | unary op operand ih => simp only [ungrouped, eval, ih]
  | binary left op right ihl ihr => simp only [ungrouped, eval, ihl, ihr]
  | group inner ih => simp only [ungrouped, eval, ih]

lemma eval_parenthesised (e : Expr) : e.parenthesised.eval = e.eval := by
  rw [← eval_ungrouped, ungrouped_parenthesised, eval_ungrouped]

lemma Derives.asExpression {tier : Tier} {d : ℕ} {e : Expr} (h : e.Derives (.level tier) d) :
    e.Derives .assignment d := by
  cases tier with
  | equality => exact .equality h
  | comparison => exact .equality (.level (.first .equality h))
  | term => exact .equality (.level (.first .equality (.level (.first .comparison h))))
  | factor =>
    exact .equality (.level (.first .equality (.level (.first .comparison (.level (.first .term h))))))

lemma Derives.unary_asExpression {d : ℕ} {e : Expr} (h : e.Derives .unary d) : e.Derives .assignment d :=
  asExpression (.level (.first .factor h))

namespace Legal

variable {e : Expr}

lemma derives (h : e.Legal) {d : ℕ} (hd : d + e.levels ≤ maxNesting) : e.parenthesised.Derives .primary d := by
  induction h generalizing d with
  | literal v => exact .literal v
  | name ht => exact .name ht
  | assign ht _ ih =>
    rw [levels] at hd
    exact .group (by omega) (.assign ht (by omega) (.unary_asExpression (.primary (ih (by omega)))))
  | unary hop _ ih =>
    rw [levels] at hd
    exact .group (by omega) (.unary_asExpression (.unary hop (by omega) (.primary (ih (by omega)))))
  | binary tier hop _ _ ihl ihr =>
    rw [levels] at hd
    have hleft := (ihl (d := d + 1) (by omega)).primary.asOperand tier
    have hright := (ihr (d := d + 1 + 0 + 1) (by omega)).primary.asOperand tier
    exact .group (by omega) (.asExpression (.level (.link (.first tier hleft) hop (by omega) hright)))
  | group _ ih =>
    rw [levels] at hd
    exact .group (by omega) (.unary_asExpression (.primary (ih (by omega))))

end Legal

end Expr

namespace Parser

variable {α β : Type}

def Refuses (p : Parser α) (c : Cursor) : Prop :=
  ∃ t d, p c = .error (.fault (.ofToken .tooMuchNesting t)) d

namespace Refuses

variable {p : Parser α} {f : α → Parser β} {c d : Cursor}

lemma bind (h : Refuses p c) : Refuses (p >>= f) c := by
  obtain ⟨t, d, h⟩ := h
  exact ⟨t, d, bind_eq_of_error h⟩

lemma after {a : α} (hp : p c = .ok a d) (h : Refuses (f a) d) : Refuses (p >>= f) c := by
  rwa [Refuses, bind_eq_of_ok hp]

lemma enter_bind {f : Unit → Parser β} {ts : List Token} {n : ℕ} {fs : List SyntaxFault} (hts : ts ≠ [])
    (h : n < maxNesting → Refuses (f ()) ⟨ts, n + 1, fs⟩) : Refuses (enter >>= f) ⟨ts, n, fs⟩ := by
  by_cases hn : n < maxNesting
  · exact .after (enter_ok hn) (h hn)
  · obtain ⟨t, rest, rfl⟩ := List.exists_cons_of_ne_nil hts
    refine bind ⟨t, ⟨t :: rest, n, fs⟩, ?_⟩
    change (if maxNesting ≤ n then failHere .tooMuchNesting else setDepth (n + 1)) _ = _
    rw [if_pos (by omega)]
    rfl

lemma nested {ts : List Token} {n : ℕ} {fs : List SyntaxFault} (hts : ts ≠ [])
    (h : n < maxNesting → Refuses p ⟨ts, n + 1, fs⟩) : Refuses (Parser.nested p) ⟨ts, n, fs⟩ := by
  apply enter_bind hts
  intro hn
  obtain ⟨t, d, hp⟩ := h hn
  exact ⟨t, { d with depth := d.depth - 1 }, by simp only [hp]⟩

variable {n : ℕ}

lemma level {tier : Tier} (h : Refuses ((above n).operand tier >>= (above n).chain tier) c) :
    Refuses ((above n).level tier) c := by
  have hrest := h.bind (f := fun e => setDepth c.depth >>= fun _ => pure e)
  rw [bind_assoc] at hrest
  rw [above_level]
  exact after (p := depth) rfl hrest

lemma operand (tier : Tier) (h : Refuses ((above n).operand tier) c) : Refuses ((above n).level tier) c :=
  level h.bind

lemma expression (tier : Tier) (h : Refuses ((above n).level tier) c) : Refuses (above n).expression c := by
  have hequality : Refuses ((above n).level .equality) c := by
    cases tier with
    | equality => exact h
    | comparison => exact operand .equality h
    | term => exact operand .equality (operand .comparison h)
    | factor => exact operand .equality (operand .comparison (operand .term h))
  obtain ⟨below, hb⟩ := above_eq_climb n
  rw [hb, climb_expression, ← hb]
  exact hequality.bind

lemma unary_expression (h : Refuses (above n).unary c) : Refuses (above n).expression c :=
  expression .factor (operand .factor h)

lemma unary_operand (tier : Tier) (h : Refuses (above n).unary c) : Refuses ((above n).operand tier) c := by
  have hfactor : Refuses ((above n).level .factor) c := operand .factor h
  have hterm : Refuses ((above n).level .term) c := operand .term hfactor
  cases tier with
  | equality => exact operand .comparison hterm
  | comparison => exact hterm
  | term => exact hfactor
  | factor => exact h

end Refuses

end Parser

lemma Layer.above_below {n d : ℕ} (hn : n + d = maxNesting) :
    ∃ below, above n = climb below ∧ (d < maxNesting → ∃ k, below = above k ∧ k + (d + 1) = maxNesting) := by
  cases n with
  | zero => exact ⟨refuse, rfl, fun hd => by omega⟩
  | succ k => exact ⟨above k, rfl, fun _ => ⟨k, rfl, by omega⟩⟩

lemma Expr.spelling_ne_nil (e : Expr) : e.spelling ≠ [] := by
  cases e <;> simp [spelling]

lemma Spells.append_ne_nil {e : Expr} {ts : List Token} (h : Spells e.spelling ts) (rest : List Token) :
    ts ++ rest ≠ [] := by
  intro hnil
  rw [(List.append_eq_nil_iff.mp hnil).1] at h
  exact e.spelling_ne_nil (List.forall₂_nil_right_iff.mp h)

namespace Expr

def Refused (p : Layer → Parser Expr) (d : ℕ) (e : Expr) : Prop :=
  ∀ n ts rest fs, n + d = maxNesting → Spells e.spelling ts → Refuses (p (above n)) ⟨ts ++ rest, d, fs⟩

namespace Refused

variable {d : ℕ} {e left right : Expr} {op : Token}

lemma expression (h : e.Refused Layer.unary d) : e.Refused Layer.expression d :=
  fun n ts rest fs hn hs => (h n ts rest fs hn hs).unary_expression

lemma group (h : d < maxNesting → e.Refused Layer.expression (d + 1)) : (Expr.group e).Refused Layer.unary d := by
  intro n ts rest fs hn hs
  obtain ⟨t, us, rfl, ht, hus⟩ := Spells.exists_cons hs
  obtain ⟨us, r, rfl, hu, -⟩ := hus.exists_concat
  obtain ⟨below, hb, hbelow⟩ := above_below hn
  have ht : t.kind = .symbol .leftParen := ht
  rw [List.cons_append, List.append_assoc, hb, climb_unary, Parser.unary]
  refine .after (nextIf_none (by simp [ht, isUnaryOperator])) ?_
  change Refuses (climb below).primary _
  rw [climb_primary, Parser.primary]
  refine .after peek_cons ?_
  rw [ht, if_neg (by decide), if_pos (by decide)]
  refine .after (advance_cons (by simp [Token.isEof, ht])) (.bind (.nested (hu.append_ne_nil _) fun hd => ?_))
  obtain ⟨k, rfl, hk⟩ := hbelow hd
  exact h hd k us _ fs hk hu

lemma unary (hop : isUnaryOperator op.kind = true) (h : d < maxNesting → e.Refused Layer.unary (d + 1)) :
    (Expr.unary op e).Refused Layer.unary d := by
  intro n ts rest fs hn hs
  obtain ⟨t, us, rfl, rfl, hu⟩ := Spells.exists_cons hs
  obtain ⟨below, hb, hbelow⟩ := above_below hn
  rw [List.cons_append, hb, climb_unary, Parser.unary]
  refine .after (nextIf_some hop rfl) (.bind (.nested (hu.append_ne_nil _) fun hd => ?_))
  obtain ⟨k, rfl, hk⟩ := hbelow hd
  exact h hd k us rest fs hk hu

lemma assign {t : Token} (ht : t.kind.isIdentifier = true) (h : d < maxNesting → e.Refused Layer.expression (d + 1)) :
    (Expr.assign t e).Refused Layer.expression d := by
  intro n ts rest fs hn hs
  obtain ⟨u, us, rfl, rfl, hus⟩ := Spells.exists_cons hs
  obtain ⟨equals, vs, rfl, heq, hv⟩ := hus.exists_cons
  have heq : equals.kind = .symbol .equal := heq
  obtain ⟨below, hb, hbelow⟩ := above_below hn
  have hname : Expr.Derives (.level .equality) d (.variable u) :=
    .level (.first .equality (.asOperand .equality (.primary (.name ht))))
  have hstop : (Rule.level .equality).StopsAt (equals :: (vs ++ rest)) := by
    rw [Rule.stopsAt_cons, heq]
    rfl
  have hleft := hname.reads n [u] (equals :: (vs ++ rest)) fs hn (.cons rfl .nil) hstop
  dsimp only at hleft
  rw [hb] at hleft ⊢
  rw [climb_expression, Parser.assignment]
  refine .after hleft (.after (nextIf_some (by simp [heq]) rfl) (.bind (.nested (hv.append_ne_nil _) fun hd => ?_)))
  obtain ⟨k, rfl, hk⟩ := hbelow hd
  exact h hd k vs rest fs hk hv

lemma leftOperand (h : left.Refused Layer.unary d) : (Expr.binary left op right).Refused Layer.expression d := by
  intro n ts rest fs hn hs
  obtain ⟨us, vs, rfl, hu, -⟩ := Spells.exists_append hs
  rw [List.append_assoc]
  exact (h n us (vs ++ rest) fs hn hu).unary_expression

lemma rightOperand {tier : Tier} (hop : tier.isOperator op.kind = true) (hl : left.Derives .unary d)
    (h : d < maxNesting → right.Refused Layer.unary (d + 1)) :
    (Expr.binary left op right).Refused Layer.expression d := by
  intro n ts rest fs hn hs
  obtain ⟨us, vs, rfl, hu, hvs⟩ := Spells.exists_append hs
  obtain ⟨t, vs, rfl, rfl, hv⟩ := hvs.exists_cons
  obtain ⟨below, hb, hbelow⟩ := above_below hn
  have hfirst : (above n).operand tier ⟨us ++ t :: (vs ++ rest), d, fs⟩ = .ok left ⟨t :: (vs ++ rest), d, fs⟩ :=
    (hl.asOperand tier).reads.operand hn hu (Rule.stopsAt_operator _ hop)
  rw [List.append_assoc, List.cons_append]
  refine .expression tier (.level (.after hfirst ?_))
  rw [hb, climb_chain, Parser.chain]
  refine .after (nextIf_some hop rfl) (.enter_bind (hv.append_ne_nil _) fun hd => .bind ?_)
  obtain ⟨k, rfl, hk⟩ := hbelow hd
  exact (h hd k vs rest fs hk hv).unary_operand tier

end Refused

lemma Legal.refused {e : Expr} (h : e.Legal) {d : ℕ} (hd : maxNesting < d + e.levels) :
    e.parenthesised.Refused Layer.unary d := by
  induction h generalizing d with
  | literal v | name ht =>
    rw [levels] at hd
    intro n ts rest fs hn
    omega
  | assign ht _ ih =>
    rw [levels] at hd
    exact .group fun _ => .assign ht fun _ => (ih (by omega)).expression
  | unary hop _ ih =>
    rw [levels] at hd
    exact .group fun _ => (Refused.unary hop fun _ => ih (by omega)).expression
  | @binary left right op tier hop hl _ ihl ihr =>
    rw [levels] at hd
    refine .group fun _ => ?_
    by_cases hleft : d + 1 + left.levels ≤ maxNesting
    · exact .rightOperand hop (.primary (hl.derives hleft)) fun _ => ihr (by omega)
    · exact .leftOperand (ihl (by omega))
  | group _ ih =>
    rw [levels] at hd
    exact .group fun _ => (ih (by omega)).expression

lemma exists_group {e : Expr} (h : 0 < e.levels) : ∃ inner, e.parenthesised = .group inner := by
  cases e with
  | literal v | «variable» name => simp [levels] at h
  | assign _ _ | unary _ _ | binary _ _ _ | group _ => exact ⟨_, rfl⟩

end Expr

lemma Parser.Refuses.declaration {n d : ℕ} {t : Token} {rest : List Token} {fs : List SyntaxFault}
    (ht : t.kind = .symbol .leftParen) (h : Refuses (above n).expression ⟨t :: rest, d, fs⟩) :
    Refuses (above n).declaration ⟨t :: rest, d, fs⟩ := by
  rw [Refuses, Stmt.Reads.declaration_eq (by rw [ht]; rfl)]
  change Refuses (above n).statement _
  obtain ⟨below, hb⟩ := above_eq_climb n
  rw [hb] at h ⊢
  rw [climb_statement, Parser.statement]
  refine .after (nextIf_none (by simp [ht])) (.after peek_cons ?_)
  rw [if_neg (by simp [ht])]
  exact h.bind

namespace Parsed

lemma exists_tooMuchNesting {t : Token} {rest : List Token} (ht : t.isEof = false) (hend : ∃ u ∈ rest, u.isEof = true)
    (h : Refuses (above maxNesting).declaration ⟨t :: rest, 0, []⟩) :
    ∃ parsed, ofTokens (t :: rest) = .ok parsed ∧ ∃ f ∈ parsed.faults, f.kind = .tooMuchNesting := by
  obtain ⟨u, d, hr⟩ := h
  obtain ⟨last, hlast, hl⟩ := hend
  -- neither the declaration nor recovery takes the end mark
  have hsound := (above_sound maxNesting 0).declaration (Nat.zero_le _) ⟨t :: rest, 0, []⟩ rfl
  obtain ⟨ts, fs, hread⟩ := (hsound.stop hr).reads
  have hd : last ∈ d.rest := by
    have hmem : last ∈ ts ++ d.rest := hread.rest ▸ List.mem_cons_of_mem t hlast
    exact (List.mem_append.mp hmem).resolve_left fun hts => by simp [hread.noEnd last hts] at hl
  cases hb : boundary false 0 d.rest with
  | none => simp [boundary_none hb last hd] at hl
  | some left =>
    obtain ⟨us, hleft, hno⟩ := boundary_some hb
    have hmem : last ∈ left :=
      (List.mem_append.mp (hleft ▸ hd)).resolve_left fun hus => by simp [hno last hus] at hl
    obtain ⟨others, hothers⟩ := exists_ofTokens hmem hl
    obtain ⟨e, he, hfaults⟩ := declarations_framed hothers (.ofToken .tooMuchNesting u :: d.faults)
    have hall := declarations_cons (unit_progresses maxNesting) rfl ht (recovering_of_fault hr hb)
    refine ⟨⟨others.statements, e.faults.reverse⟩, ?_, .ofToken .tooMuchNesting u, ?_, rfl⟩
    · rw [ofTokens, hall, map_ok he]
      rfl
    · simp [hfaults]

theorem ofTokens_parenthesised (e : Expr) (he : e.Legal) (ts : List Token) (semicolon last : Token)
    (hts : Spells e.parenthesised.spelling ts) (hs : semicolon.kind = .symbol .semicolon) (hl : last.isEof = true) :
    (e.levels ≤ maxNesting →
      ofTokens (ts ++ [semicolon, last]) = .ok ⟨[.expression e.parenthesised], []⟩ ∧
        e.parenthesised.ungrouped = e.ungrouped ∧ ∀ scopes : Scopes, e.parenthesised.eval scopes = e.eval scopes) ∧
    (maxNesting < e.levels → ∃ parsed, ofTokens (ts ++ [semicolon, last]) = .ok parsed ∧
      ∃ f ∈ parsed.faults, f.kind = .tooMuchNesting) := by
  constructor
  · intro hle
    have hder : (Stmt.expression e.parenthesised).Derives 0 :=
      .expression (.unary_asExpression (.primary (he.derives (by omega))))
    have hend : Spells [.any (.symbol .semicolon)] [semicolon] := .cons hs .nil
    have hspells : Spells (Stmt.spellingEach [.expression e.parenthesised]) (ts ++ [semicolon]) := by
      simpa [Stmt.spellingEach, Stmt.spelling] using hts.append hend
    refine ⟨?_, e.ungrouped_parenthesised, fun scopes => by rw [e.eval_parenthesised]⟩
    simpa using ofTokens_of_spells [.expression e.parenthesised] (by simpa using hder) hspells hl
  · intro hlt
    obtain ⟨inner, hinner⟩ := Expr.exists_group (e := e) (by omega)
    have hexpression := (he.refused (d := 0) (by omega)).expression maxNesting ts [semicolon, last] [] rfl hts
    rw [hinner] at hts
    obtain ⟨t, us, rfl, ht, -⟩ := Spells.exists_cons hts
    exact exists_tooMuchNesting (by simp [Token.isEof, show t.kind = _ from ht]) ⟨last, by simp, hl⟩
      (hexpression.declaration ht)

def mixedProduct : Expr :=
  -- An assignment and a comparison as the operands of a product, which no precedence gives without parentheses.
  let x : Token := ⟨.identifier "x", "x", 1⟩
  .binary (.assign x (.literal (.bool true))) ⟨.symbol .star, "*", 1⟩
    (.unary ⟨.symbol .minus, "-", 1⟩ (.binary (.variable x) ⟨.symbol .less, "<", 1⟩ (.group (.literal .nil))))

def negations : ℕ → Expr
  | 0 => .literal .nil
  | n + 1 => .unary ⟨.symbol .minus, "-", 1⟩ (negations n)

lemma legal_mixedProduct : mixedProduct.Legal :=
  .binary .factor rfl (.assign rfl (.literal _))
    (.unary rfl (.binary .comparison rfl (.name rfl) (.group (.literal _))))

lemma legal_negations (n : ℕ) : (negations n).Legal := by
  induction n with
  | zero => exact .literal _
  | succ n ih => exact .unary rfl ih

theorem ofTokens_parenthesised_mixedProduct :
    let close : List Token := [⟨.symbol .semicolon, ";", 1⟩, ⟨.eof, "", 1⟩]
    (ofTokens (mixedProduct.parenthesised.spelling.map Mark.token ++ close) =
        .ok ⟨[.expression mixedProduct.parenthesised], []⟩ ∧
      mixedProduct.parenthesised.ungrouped = mixedProduct.ungrouped ∧
      ∀ scopes : Scopes, mixedProduct.parenthesised.eval scopes = mixedProduct.eval scopes) ∧
    ∃ parsed, ofTokens ((negations 65).parenthesised.spelling.map Mark.token ++ close) = .ok parsed ∧
      ∃ f ∈ parsed.faults, f.kind = .tooMuchNesting :=
  ⟨(ofTokens_parenthesised mixedProduct legal_mixedProduct _ _ _ (.map_token _) rfl rfl).1 (by decide),
    (ofTokens_parenthesised (negations 65) (legal_negations 65) _ _ _ (.map_token _) rfl rfl).2 (by decide)⟩

end Parsed

end Lox
