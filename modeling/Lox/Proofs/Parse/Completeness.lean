import Lox.Proofs.Parse.Lookahead
import Lox.Proofs.Parse.Soundness

namespace Lox

open Lox.Parser Lox.Layer

lemma isUnaryOperator_of_isIdentifier {k : Token.Kind} (h : k.isIdentifier = true) : isUnaryOperator k = false := by
  cases k <;> first | rfl | cases h

/-- From tokens that spell `e` and a rest that cannot belong to it, the rule's parser at depth `d` gives `e`. A chain
is given only as far as its last link, where the parser is about to look for the next. -/
def Expr.Reads (rule : Rule) (d : ℕ) (e : Expr) : Prop :=
  ∀ n ts rest fs, n + d = maxNesting → Spells e.spelling ts → rule.StopsAt rest →
    match rule with
    | .assignment => (above n).expression ⟨ts ++ rest, d, fs⟩ = .ok e ⟨rest, d, fs⟩
    | .level tier => (above n).level tier ⟨ts ++ rest, d, fs⟩ = .ok e ⟨rest, d, fs⟩
    | .unary => (above n).unary ⟨ts ++ rest, d, fs⟩ = .ok e ⟨rest, d, fs⟩
    | .primary => (above n).primary ⟨ts ++ rest, d, fs⟩ = .ok e ⟨rest, d, fs⟩
    | .chain tier links => ∃ m, m + links = n ∧
      ((above n).operand tier >>= (above n).chain tier) ⟨ts ++ rest, d, fs⟩ =
        (above m).chain tier e ⟨rest, d + links, fs⟩

namespace Expr.Reads

variable {d : ℕ} {e : Expr} {tier : Tier}

lemma operand (h : e.Reads tier.operand d) {n : ℕ} {ts rest : List Token} {fs : List SyntaxFault}
    (hn : n + d = maxNesting) (hs : Spells e.spelling ts) (hr : tier.operand.StopsAt rest) :
    (above n).operand tier ⟨ts ++ rest, d, fs⟩ = .ok e ⟨rest, d, fs⟩ := by
  cases tier <;> exact h n ts rest fs hn hs hr

lemma atom {m : Mark} (hs : e.spelling = [m])
    (hm : ∀ t, m.Accepts t → t.kind.isAtom = true ∧ t.toExpr = .ok e) : e.Reads .primary d := by
  intro n ts rest fs _ hts _
  rw [hs] at hts
  obtain ⟨t, us, rfl, ht, hu⟩ := hts.exists_cons
  obtain rfl := List.forall₂_nil_left_iff.mp hu
  obtain ⟨ha, he⟩ := hm t ht
  obtain ⟨below, hb⟩ := above_eq_climb n
  change (above n).primary ⟨t :: rest, d, fs⟩ = _
  rw [hb, climb_primary, Parser.primary, bind_eq_of_ok peek_cons, if_pos ha,
    bind_eq_of_ok (advance_cons (Token.isEof_of_kind ha rfl)), he]
  rfl

lemma literal (v : Value) : (Expr.literal v).Reads .primary d := by
  refine atom (m := .any v.kind) rfl fun t ht => ?_
  change t.kind = v.kind at ht
  unfold Token.toExpr Token.toExpr?
  rw [ht]
  match v with
  | .nil | .bool true | .bool false | .number _ | .string _ => exact ⟨rfl, rfl⟩

lemma name {t : Token} (h : t.kind.isIdentifier = true) : (Expr.variable t).Reads .primary d := by
  refine atom (m := .own t) rfl fun u hu => ?_
  obtain rfl : u = t := hu
  obtain ⟨kind, lexeme, line⟩ := u
  cases kind with
  | identifier name => exact ⟨rfl, rfl⟩
  | _ => cases h

lemma group (hd : d < maxNesting) (h : e.Reads .assignment (d + 1)) : (Expr.group e).Reads .primary d := by
  intro n ts rest fs hn hts _
  obtain ⟨t, us, rfl, ht, hus⟩ := Spells.exists_cons hts
  obtain ⟨vs, r, rfl, hv, hr⟩ := hus.exists_concat
  obtain ⟨n, rfl⟩ : ∃ m, n = m + 1 := ⟨n - 1, by omega⟩
  have hstop : Rule.assignment.StopsAt (r :: rest) := by
    rw [Rule.stopsAt_cons, show r.kind = _ from hr]
    rfl
  have hin := nested_ok hd (h n vs (r :: rest) fs (by omega) hv hstop)
  change (climb (above n)).primary ⟨t :: (vs ++ [r]) ++ rest, d, fs⟩ = _
  rw [climb_primary, Parser.primary, List.cons_append, bind_eq_of_ok peek_cons, show t.kind = _ from ht,
    if_neg (by decide), if_pos (by decide),
    bind_eq_of_ok (advance_cons (by simp [Token.isEof, show t.kind = _ from ht])),
    List.append_assoc, List.singleton_append, bind_eq_of_ok hin, bind_eq_of_ok (expectSymbol_cons hr)]
  rfl

lemma primary (h : e.Reads .primary d)
    (hs : ∀ ts, Spells e.spelling ts → ∃ t us, ts = t :: us ∧ isUnaryOperator t.kind = false) :
    e.Reads .unary d := by
  intro n ts rest fs hn hts hr
  obtain ⟨t, us, rfl, ht⟩ := hs ts hts
  obtain ⟨below, hb⟩ := above_eq_climb n
  have hp := h n (t :: us) rest fs hn hts hr
  rw [hb] at hp
  change (above n).unary _ = _
  rw [hb, climb_unary, Parser.unary, bind_eq_of_ok (nextIf_none (by simpa using ht))]
  exact hp

lemma unary {op : Token} (hop : isUnaryOperator op.kind = true) (hd : d < maxNesting) (h : e.Reads .unary (d + 1)) :
    (Expr.unary op e).Reads .unary d := by
  intro n ts rest fs hn hts hr
  obtain ⟨t, us, rfl, rfl, hus⟩ := Spells.exists_cons hts
  obtain ⟨n, rfl⟩ : ∃ m, n = m + 1 := ⟨n - 1, by omega⟩
  have hin := nested_ok hd (h n us rest fs (by omega) hus hr)
  change (climb (above n)).unary ⟨t :: us ++ rest, d, fs⟩ = _
  rw [climb_unary, Parser.unary, List.cons_append]
  exact (bind_eq_of_ok (nextIf_some hop rfl)).trans (bind_eq_of_ok hin)

lemma first (tier : Tier) (h : e.Reads tier.operand d) : e.Reads (.chain tier 0) d := by
  intro n ts rest fs hn hts hr
  refine ⟨n, rfl, bind_eq_of_ok (h.operand hn hts ?_)⟩
  intro t ht
  rw [Rule.continues_operand tier 0]
  exact hr t ht

lemma link {k : ℕ} {left right : Expr} {op : Token} (hl : left.Reads (.chain tier k) d)
    (hop : tier.isOperator op.kind = true) (hd : d + k < maxNesting) (hright : right.Reads tier.operand (d + k + 1)) :
    (Expr.binary left op right).Reads (.chain tier (k + 1)) d := by
  intro n ts rest fs hn hts hr
  obtain ⟨us, vs, rfl, hus, hvs⟩ := Spells.exists_append hts
  obtain ⟨t, ws, rfl, rfl, hws⟩ := hvs.exists_cons
  have hstop : (Rule.chain tier k).StopsAt (t :: ws ++ rest) := by
    rw [List.cons_append, Rule.stopsAt_cons, ← Rule.continues_operand]
    exact Rule.stopsAt_cons.mp (Rule.stopsAt_operator rest hop)
  obtain ⟨m, rfl, hm⟩ := hl n us (t :: ws ++ rest) fs hn hus hstop
  obtain ⟨m, rfl⟩ : ∃ i, m = i + 1 := ⟨m - 1, by omega⟩
  have hr' : tier.operand.StopsAt rest := by
    intro u hu
    rw [Rule.continues_operand tier (k + 1)]
    exact hr u hu
  refine ⟨m, by omega, ?_⟩
  rw [List.append_assoc, hm]
  change (climb (above m)).chain tier left ⟨t :: (ws ++ rest), d + k, fs⟩ = _
  rw [climb_chain, Parser.chain]
  refine (bind_eq_of_ok (nextIf_some hop rfl)).trans ?_
  exact (bind_eq_of_ok (enter_ok hd)).trans (bind_eq_of_ok (hright.operand (by omega) hws hr'))

lemma level {k : ℕ} (h : e.Reads (.chain tier k) d) : e.Reads (.level tier) d := by
  intro n ts rest fs hn hts hr
  obtain ⟨m, rfl, hm⟩ := h n ts rest fs hn hts (fun t ht => Rule.continues_operand tier k ▸ hr.operand t ht)
  obtain ⟨below, hb⟩ := above_eq_climb m
  rw [hb, climb_chain, Parser.chain, bind_eq_of_ok (nextIf_none hr.isOperator)] at hm
  change (above (m + k)).level tier _ = _
  rw [above_level]
  exact level_ok hm

lemma asOperand (tier : Tier) (h : e.Reads .unary d) : e.Reads tier.operand d := by
  have hfactor : e.Reads (.level .factor) d := (first .factor h).level
  have hterm : e.Reads (.level .term) d := (first .term hfactor).level
  have hcomparison : e.Reads (.level .comparison) d := (first .comparison hterm).level
  cases tier
  exacts [hcomparison, hterm, hfactor, h]

lemma equality (h : e.Reads (.level .equality) d) : e.Reads .assignment d := by
  intro n ts rest fs hn hts hr
  obtain ⟨below, hb⟩ := above_eq_climb n
  have hq := h n ts rest fs hn hts hr.equality
  dsimp only at hq
  change (above n).expression _ = _
  rw [hb, climb_expression, Parser.assignment, ← hb, bind_eq_of_ok hq, bind_eq_of_ok (nextIf_none hr.equal)]
  rfl

lemma assign {t : Token} (ht : t.kind.isIdentifier = true) (hd : d < maxNesting) (h : e.Reads .assignment (d + 1)) :
    (Expr.assign t e).Reads .assignment d := by
  -- The target alone is read as an equality, which stops at the `=` behind it.
  have hu : (Expr.variable t).Reads .unary d := by
    refine (name ht).primary fun ts hts => ?_
    obtain ⟨u, us, rfl, rfl, -⟩ := Spells.exists_cons hts
    exact ⟨u, us, rfl, isUnaryOperator_of_isIdentifier ht⟩
  have hq : (Expr.variable t).Reads (.level .equality) d := (first .equality (hu.asOperand .equality)).level
  intro n ts rest fs hn hts hr
  obtain ⟨u, us, rfl, rfl, hus⟩ := Spells.exists_cons hts
  obtain ⟨equals, vs, rfl, heq, hvs⟩ := hus.exists_cons
  obtain ⟨n, rfl⟩ : ∃ m, n = m + 1 := ⟨n - 1, by omega⟩
  have heq : equals.kind = .symbol .equal := heq
  have hstop : (Rule.level .equality).StopsAt (equals :: (vs ++ rest)) := by
    rw [Rule.stopsAt_cons, heq]
    rfl
  have hleft := hq (n + 1) [u] (equals :: (vs ++ rest)) fs hn (.cons rfl .nil) hstop
  have hin := nested_ok hd (h n vs rest fs (by omega) hvs hr)
  dsimp only at hleft
  change (climb (above n)).expression ⟨u :: equals :: vs ++ rest, d, fs⟩ = _
  rw [climb_expression, Parser.assignment]
  refine (bind_eq_of_ok hleft).trans ?_
  exact (bind_eq_of_ok (nextIf_some (by simp [heq]) rfl)).trans (bind_eq_of_ok hin)

end Expr.Reads

end Lox
