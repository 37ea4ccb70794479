import Lox.Parse.Layer
import Mathlib.Data.List.Forall2

namespace Lox

inductive Rule where
  | assignment
  | level (tier : Tier)
  | chain (tier : Tier) (links : ℕ)
  | unary
  | primary
deriving DecidableEq, Repr

def Tier.operand : Tier → Rule
  | .equality => .level .comparison
  | .comparison => .level .term
  | .term => .level .factor
  | .factor => .unary

/-- The trees that a rule derives from depth `d` on without passing the deepest level. In a chain the first operand
is read at `d` and the right operand of its `k`-th operator at `d + k`. -/
inductive Expr.Derives : Rule → ℕ → Expr → Prop
  | literal {d : ℕ} (v : Value) : Derives .primary d (.literal v)
  | name {d : ℕ} {t : Token} : t.kind.isIdentifier = true → Derives .primary d (.variable t)
  | group {d : ℕ} {e : Expr} : d < maxNesting → Derives .assignment (d + 1) e → Derives .primary d (.group e)
  | primary {d : ℕ} {e : Expr} : Derives .primary d e → Derives .unary d e
  | unary {d : ℕ} {op : Token} {e : Expr} : isUnaryOperator op.kind = true → d < maxNesting →
      Derives .unary (d + 1) e → Derives .unary d (.unary op e)
  | first (tier : Tier) {d : ℕ} {e : Expr} : Derives tier.operand d e → Derives (.chain tier 0) d e
  | link {tier : Tier} {d k : ℕ} {left right : Expr} {op : Token} : Derives (.chain tier k) d left →
      tier.isOperator op.kind = true → d + k < maxNesting → Derives tier.operand (d + k + 1) right →
      Derives (.chain tier (k + 1)) d (.binary left op right)
  | level {tier : Tier} {d k : ℕ} {e : Expr} : Derives (.chain tier k) d e → Derives (.level tier) d e
  | equality {d : ℕ} {e : Expr} : Derives (.level .equality) d e → Derives .assignment d e
  | assign {d : ℕ} {name : Token} {value : Expr} : name.kind.isIdentifier = true → d < maxNesting →
      Derives .assignment (d + 1) value → Derives .assignment d (.assign name value)

inductive Stmt.Derives : ℕ → Stmt → Prop
  | block {d : ℕ} {body : List Stmt} : d < maxNesting → (∀ s ∈ body, Derives (d + 1) s) → Derives d (.block body)
  | expression {d : ℕ} {e : Expr} : e.Derives .assignment d → Derives d (.expression e)
  | print {d : ℕ} {e : Expr} : e.Derives .assignment d → Derives d (.print e)
  | var {d : ℕ} {name : Token} {init : Option Expr} : name.kind.isIdentifier = true →
      (∀ e ∈ init, e.Derives .assignment d) → Derives d (.var name init)

lemma Token.isEof_of_kind {p : Token.Kind → Bool} {t : Token} (h : p t.kind = true) (hp : p .eof = false) :
    t.isEof = false := by
  by_contra he
  rw [Bool.not_eq_false, Token.isEof_iff] at he
  rw [he, hp] at h
  cases h

/-- What a tree knows of one of its tokens: the token itself, or only what kind it is. -/
inductive Mark where
  | own (t : Token)
  | any (k : Token.Kind)
deriving DecidableEq, Repr

namespace Mark

def kind : Mark → Token.Kind
  | .own t => t.kind
  | .any k => k

def Accepts : Mark → Token → Prop
  | .own t, u => u = t
  | .any k, u => u.kind = k

lemma Accepts.kind_eq {m : Mark} {t : Token} (h : m.Accepts t) : t.kind = m.kind := by
  cases m with
  | own u => exact congrArg Token.kind h
  | any k => exact h

def token : Mark → Token
  | .own t => t
  | .any k => ⟨k, "", 1⟩

lemma accepts_token (m : Mark) : m.Accepts m.token := by
  cases m <;> rfl

end Mark

def Value.kind : Value → Token.Kind
  | .nil => .keyword .nilKw
  | .bool true => .keyword .trueKw
  | .bool false => .keyword .falseKw
  | .number x => .number x
  | .string s => .string s

def Expr.spelling : Expr → List Mark
  | .literal v => [.any v.kind]
  | .variable name => [.own name]
  | .assign name value => .own name :: .any (.symbol .equal) :: value.spelling
  | .unary op operand => .own op :: operand.spelling
  | .binary left op right => left.spelling ++ .own op :: right.spelling
  | .group inner => .any (.symbol .leftParen) :: inner.spelling ++ [.any (.symbol .rightParen)]

lemma Expr.Derives.asOperand (tier : Tier) {d : ℕ} {e : Expr} (h : e.Derives .unary d) : e.Derives tier.operand d := by
  cases tier with
  | factor => exact h
  | term => exact .level (.first .factor h)
  | comparison => exact .level (.first .term (.level (.first .factor h)))
  | equality => exact .level (.first .comparison (.level (.first .term (.level (.first .factor h)))))

namespace Stmt

def initSpelling : Option Expr → List Mark
  | none => []
  | some e => .any (.symbol .equal) :: e.spelling

mutual

def spelling : Stmt → List Mark
  | .block body => .any (.symbol .leftBrace) :: spellingEach body ++ [.any (.symbol .rightBrace)]
  | .expression e => e.spelling ++ [.any (.symbol .semicolon)]
  | .print e => .any (.keyword .printKw) :: e.spelling ++ [.any (.symbol .semicolon)]
  | .var name init => .any (.keyword .varKw) :: .own name :: initSpelling init ++ [.any (.symbol .semicolon)]

def spellingEach : List Stmt → List Mark
  | [] => []
  | s :: rest => spelling s ++ spellingEach rest

end

@[simp] lemma spellingEach_append (xs ys : List Stmt) :
    spellingEach (xs ++ ys) = spellingEach xs ++ spellingEach ys := by
  induction xs with
  | nil => rfl
  | cons s xs ih => simp only [List.cons_append, spellingEach, ih, List.append_assoc]

lemma spelling_subset_spellingEach {s : Stmt} {body : List Stmt} (hs : s ∈ body) : s.spelling ⊆ spellingEach body := by
  induction hs with
  | head body => exact List.subset_append_left _ _
  | tail _ _ ih => exact List.subset_append_of_subset_right _ ih

end Stmt

def Spells (ms : List Mark) (ts : List Token) : Prop :=
  List.Forall₂ Mark.Accepts ms ts

namespace Spells

lemma map_token (ms : List Mark) : Spells ms (ms.map Mark.token) := by
  induction ms with
  | nil => exact .nil
  | cons m ms ih => exact .cons m.accepts_token ih

lemma length_eq {ms : List Mark} {ts : List Token} (h : Spells ms ts) : ms.length = ts.length :=
  List.Forall₂.length_eq h

lemma append {ms ns : List Mark} {ts us : List Token} (h : Spells ms ts) (hn : Spells ns us) :
    Spells (ms ++ ns) (ts ++ us) :=
  List.rel_append h hn

lemma kinds {ms : List Mark} {ts : List Token} (h : Spells ms ts) : ts.map Token.kind = ms.map Mark.kind := by
  induction h with
  | nil => rfl
  | cons hm _ ih => rw [List.map_cons, List.map_cons, hm.kind_eq, ih]

lemma exists_accepts {ms : List Mark} {ts : List Token} (h : Spells ms ts) {m : Mark} (hm : m ∈ ms) :
    ∃ t ∈ ts, m.Accepts t := by
  induction h with
  | nil => cases hm
  | @cons n u _ _ hn _ ih =>
    rcases List.mem_cons.mp hm with rfl | hm
    · exact ⟨u, .head _, hn⟩
    · obtain ⟨t, ht, ha⟩ := ih hm
      exact ⟨t, .tail _ ht, ha⟩

lemma exists_cons {m : Mark} {ms : List Mark} {ts : List Token} (h : Spells (m :: ms) ts) :
    ∃ t us, ts = t :: us ∧ m.Accepts t ∧ Spells ms us := by
  obtain ⟨t, us, hm, hs, rfl⟩ := List.forall₂_cons_left_iff.mp h
  exact ⟨t, us, rfl, hm, hs⟩

lemma exists_append {ms ns : List Mark} {ts : List Token} (h : Spells (ms ++ ns) ts) :
    ∃ us vs, ts = us ++ vs ∧ Spells ms us ∧ Spells ns vs := by
  induction ms generalizing ts with
  | nil => exact ⟨[], ts, rfl, .nil, h⟩
  | cons m ms ih =>
    obtain ⟨t, us, rfl, hm, hs⟩ := exists_cons h
    obtain ⟨vs, ws, rfl, hv, hw⟩ := ih hs
    exact ⟨t :: vs, ws, rfl, .cons hm hv, hw⟩

lemma exists_concat {ms : List Mark} {m : Mark} {ts : List Token} (h : Spells (ms ++ [m]) ts) :
    ∃ us t, ts = us ++ [t] ∧ Spells ms us ∧ m.Accepts t := by
  obtain ⟨us, vs, rfl, hu, hv⟩ := exists_append h
  obtain ⟨t, ws, rfl, ht, hw⟩ := exists_cons hv
  obtain rfl := List.forall₂_nil_left_iff.mp hw
  exact ⟨us, t, rfl, hu, ht⟩

end Spells

end Lox
