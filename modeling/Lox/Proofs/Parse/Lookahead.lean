import Lox.Proofs.Agreement
import Lox.Proofs.Grammar
import Lox.Proofs.Parse.Tower

namespace Lox

namespace Parser

variable {α β : Type} {t : Token} {ts rest : List Token} {d : ℕ} {fs : List SyntaxFault} {p : Token.Kind → Bool}

lemma map_ok {q : Parser α} {f : α → β} {c c' : Cursor} {a : α} (h : q c = .ok a c') :
    (f <$> q) c = .ok (f a) c' := by
  simp only [Functor.map, EStateM.map, h]

lemma peek_cons : peek ⟨t :: rest, d, fs⟩ = .ok t ⟨t :: rest, d, fs⟩ := rfl

lemma advance_cons (ht : t.isEof = false) : advance ⟨t :: rest, d, fs⟩ = .ok t ⟨rest, d, fs⟩ := by
  simp [advance, ht]

lemma nextIf_some (ht : p t.kind = true) (hp : p .eof = false) :
    nextIf p ⟨t :: rest, d, fs⟩ = .ok (some t) ⟨rest, d, fs⟩ := by
  simp [nextIf, Token.isEof_of_kind ht hp, ht]

lemma nextIf_none (h : ∀ t ∈ rest.head?, p t.kind = false) :
    nextIf p ⟨rest, d, fs⟩ = .ok none ⟨rest, d, fs⟩ := by
  cases rest with
  | nil => rfl
  | cons t rest => simp [nextIf, h t rfl]

lemma expect_cons {kind : SyntaxFault.Kind} (ht : p t.kind = true) (hp : p .eof = false) :
    expect p kind ⟨t :: rest, d, fs⟩ = .ok t ⟨rest, d, fs⟩ :=
  bind_eq_of_ok (nextIf_some ht hp)

lemma expectSymbol_cons {s : Symbol} {kind : SyntaxFault.Kind} (ht : t.kind = .symbol s) :
    expectSymbol s kind ⟨t :: rest, d, fs⟩ = .ok () ⟨rest, d, fs⟩ :=
  bind_eq_of_ok (expect_cons (by simp [ht]) rfl)

lemma expectSymbol_other {s : Symbol} {kind : SyntaxFault.Kind} (ht : t.kind ≠ .symbol s) :
    expectSymbol s kind ⟨t :: rest, d, fs⟩ = .error (.fault (.ofToken kind t)) ⟨t :: rest, d, fs⟩ := by
  have hnext : nextIf (· == .symbol s) ⟨t :: rest, d, fs⟩ = .ok none ⟨t :: rest, d, fs⟩ :=
    nextIf_none (by simpa using ht)
  simp only [expectSymbol, expect, bind, EStateM.bind, hnext]
  rfl

lemma enter_ok (hd : d < maxNesting) : enter ⟨rest, d, fs⟩ = .ok () ⟨rest, d + 1, fs⟩ := by
  change (if maxNesting ≤ d then failHere .tooMuchNesting else setDepth (d + 1)) _ = _
  rw [if_neg (by omega)]
  rfl

lemma nested_ok {q : Parser α} {a : α} {gs : List SyntaxFault} (hd : d < maxNesting)
    (h : q ⟨ts, d + 1, fs⟩ = .ok a ⟨rest, d + 1, gs⟩) : nested q ⟨ts, d, fs⟩ = .ok a ⟨rest, d, gs⟩ := by
  simp only [nested, bind, EStateM.bind, enter_ok hd, h, Nat.add_sub_cancel]

lemma level_ok {operand : Parser Expr} {chain : Expr → Parser Expr} {e : Expr} {d' : ℕ}
    (h : (operand >>= chain) ⟨ts, d, fs⟩ = .ok e ⟨rest, d', fs⟩) :
    level operand chain ⟨ts, d, fs⟩ = .ok e ⟨rest, d, fs⟩ := by
  simp only [bind, EStateM.bind] at h
  simp only [level, bind, EStateM.bind, depth]
  cases ho : operand ⟨ts, d, fs⟩ with
  | error x c => simp [ho] at h
  | ok first c =>
    rw [ho] at h
    simp only [h]
    rfl

end Parser

def Tier.reaches : Tier → Token.Kind → Bool
  | .factor, k => Tier.factor.isOperator k
  | .term, k => Tier.term.isOperator k || Tier.factor.isOperator k
  | .comparison, k => Tier.comparison.isOperator k || Tier.term.isOperator k || Tier.factor.isOperator k
  | .equality, k =>
    Tier.equality.isOperator k || Tier.comparison.isOperator k || Tier.term.isOperator k || Tier.factor.isOperator k

namespace Rule

/-- Tokens that a tree of the rule could still take behind it. A chain is looked at between two of its operators. -/
def continues : Rule → Token.Kind → Bool
  | .assignment, k => Tier.equality.reaches k || k == .symbol .equal
  | .level tier, k => tier.reaches k
  | .chain .equality _, k => Tier.comparison.reaches k
  | .chain .comparison _, k => Tier.term.reaches k
  | .chain .term _, k => Tier.factor.reaches k
  | .chain .factor _, _ | .unary, _ | .primary, _ => false

def StopsAt (rule : Rule) (rest : List Token) : Prop :=
  ∀ t ∈ rest.head?, rule.continues t.kind = false

variable {rest : List Token} {tier : Tier} {t : Token}

lemma stopsAt_cons {rule : Rule} : rule.StopsAt (t :: rest) ↔ rule.continues t.kind = false := by
  simp [StopsAt]

lemma continues_operand (tier : Tier) (links : ℕ) : tier.operand.continues = (Rule.chain tier links).continues := by
  cases tier <;> rfl

lemma reaches_eq (tier : Tier) (k : Token.Kind) : tier.reaches k = (tier.isOperator k || tier.operand.continues k) := by
  cases tier <;> simp [Tier.reaches, Tier.operand, continues, Bool.or_assoc]

lemma StopsAt.operand (h : (Rule.level tier).StopsAt rest) : tier.operand.StopsAt rest := by
  intro t ht
  have hk := h t ht
  rw [continues, reaches_eq, Bool.or_eq_false_iff] at hk
  exact hk.2

lemma StopsAt.isOperator (h : (Rule.level tier).StopsAt rest) : ∀ t ∈ rest.head?, tier.isOperator t.kind = false := by
  intro t ht
  have hk := h t ht
  rw [continues, reaches_eq, Bool.or_eq_false_iff] at hk
  exact hk.1

lemma stopsAt_operator (rest : List Token) (h : tier.isOperator t.kind = true) :
    tier.operand.StopsAt (t :: rest) := by
  rw [stopsAt_cons]
  obtain ⟨kind, lexeme, line⟩ := t
  cases kind with
  | symbol s => cases tier <;> cases s <;> first | rfl | cases h
  | _ => cases h

lemma StopsAt.equality (h : Rule.assignment.StopsAt rest) : (Rule.level .equality).StopsAt rest := by
  intro t ht
  exact (Bool.or_eq_false_iff.mp (h t ht)).1

lemma StopsAt.equal (h : Rule.assignment.StopsAt rest) :
    ∀ t ∈ rest.head?, (t.kind == .symbol .equal) = false := by
  intro t ht
  exact (Bool.or_eq_false_iff.mp (h t ht)).2

end Rule

end Lox
