import Lox.Proofs.Parse.NoLoss
import Lox.Proofs.Parse.RoundTrip

/-! How deep the literals and names of a returned tree lie. A parser counts the operators of a chain before it reads
the next operand, but it is those behind the operand that will stand above it: so the depth at which a leaf is read
is bounded, and the nodes above the leaf are not bounded by the same number. -/

namespace Lox

def Tier.of? (k : Token.Kind) : Option Tier :=
  [.equality, .comparison, .term, .factor].find? fun tier => tier.isOperator k

lemma Tier.of?_eq_some {tier : Tier} {k : Token.Kind} (h : tier.isOperator k = true) : of? k = some tier := by
  cases k with
  | symbol s => cases tier <;> cases s <;> first | rfl | cases h
  | _ => cases h

/-- A literal or a name in a tree: the depth at which it is read, the operators of its chains that come earlier or
later than the one that takes it, and the nodes above it. -/
structure Leaf where
  depth : ℕ
  earlier : ℕ
  later : ℕ
  nodes : ℕ
deriving DecidableEq, Repr

namespace Leaf

def under (l : Leaf) : Leaf :=
  { l with nodes := l.nodes + 1 }

def leftOf (l : Leaf) : Leaf :=
  { l with later := l.later + 1, nodes := l.nodes + 1 }

def rightOf (links : ℕ) (l : Leaf) : Leaf :=
  { l with earlier := l.earlier + links, nodes := l.nodes + 1 }

end Leaf

namespace Expr

def links (op : Token) : Expr → ℕ
  | .binary left o _ => if Tier.of? o.kind = Tier.of? op.kind then left.links op + 1 else 0
  | _ => 0

def leaves (d : ℕ) : Expr → List Leaf
  | .literal _ | .variable _ => [⟨d, 0, 0, 0⟩]
  | .assign _ e | .unary _ e | .group e => (e.leaves (d + 1)).map Leaf.under
  | .binary left op right =>
    (left.leaves d).map Leaf.leftOf ++ (right.leaves (d + left.links op + 1)).map (Leaf.rightOf (left.links op))

lemma leaves_nodes {e : Expr} {d : ℕ} {l : Leaf} (h : l ∈ e.leaves d) :
    l.nodes + d + l.earlier = l.depth + l.later := by
  induction e generalizing d l with
  | literal | «variable» =>
    obtain rfl := List.mem_singleton.mp h
    simp
  | assign _ _ ih | unary _ _ ih | group _ ih =>
    obtain ⟨l, hl, rfl⟩ := List.mem_map.mp h
    have := ih hl
    simp only [Leaf.under]
    omega
  | binary left op right ihl ihr =>
    rcases List.mem_append.mp h with h | h
    · obtain ⟨l, hl, rfl⟩ := List.mem_map.mp h
      have := ihl hl
      simp only [Leaf.leftOf]
      omega
    · obtain ⟨l, hl, rfl⟩ := List.mem_map.mp h
      have := ihr hl
      simp only [Leaf.rightOf]
      omega

end Expr

namespace Stmt

mutual

def leaves (d : ℕ) : Stmt → List Leaf
  | .block body => (leavesEach (d + 1) body).map Leaf.under
  | .expression e | .print e => e.leaves d
  | .var _ init => init.elim [] (Expr.leaves d)

def leavesEach (d : ℕ) : List Stmt → List Leaf
  | [] => []
  | s :: rest => leaves d s ++ leavesEach d rest

end

lemma mem_leavesEach {d : ℕ} {body : List Stmt} {l : Leaf} (h : l ∈ leavesEach d body) :
    ∃ s ∈ body, l ∈ s.leaves d := by
  induction body with
  | nil => simp [leavesEach] at h
  | cons s body ih =>
    rw [leavesEach, List.mem_append] at h
    rcases h with h | h
    · exact ⟨s, .head _, h⟩
    · obtain ⟨x, hx, hl⟩ := ih h
      exact ⟨x, .tail _ hx, hl⟩

lemma Derives.leaves_induction {P : ℕ → Leaf → Prop}
    (hexpr : ∀ d (e : Expr), d ≤ maxNesting → e.Derives .assignment d → ∀ l ∈ e.leaves d, P d l)
    (hblock : ∀ d l, d < maxNesting → P (d + 1) l → P d l.under) {d : ℕ} {s : Stmt} (h : s.Derives d)
    (hd : d ≤ maxNesting) : ∀ l ∈ s.leaves d, P d l := by
  induction h with
  | @block d body hlt _ ih =>
    intro l hl
    rw [leaves] at hl
    obtain ⟨inner, hinner, rfl⟩ := List.mem_map.mp hl
    obtain ⟨s, hs, hmem⟩ := mem_leavesEach hinner
    exact hblock d inner hlt (ih s hs hlt inner hmem)
  | expression h | print h => exact hexpr _ _ hd h
  | @var d name init _ h =>
    cases init with
    | none => simp [leaves]
    | some e => exact hexpr d e hd (h e rfl)

end Stmt

def Tier.stacked : Tier → ℕ
  | .factor => 1
  | .term => 2
  | .comparison => 3
  | .equality => 4

def Rule.tighter (tier : Tier) : Rule → Prop
  | .assignment => False
  | .level t | .chain t _ => t.stacked < tier.stacked
  | .unary | .primary => True

lemma Rule.tighter_operand {t tier : Tier} (h : t.stacked ≤ tier.stacked) : t.operand.tighter tier := by
  cases t <;> simp only [Tier.operand, tighter, Tier.stacked] at h ⊢ <;> omega

namespace Expr.Derives

lemma links_eq_zero {rule : Rule} {d : ℕ} {e : Expr} (h : e.Derives rule d) {tier : Tier} (hr : rule.tighter tier)
    {op : Token} (hop : tier.isOperator op.kind = true) : e.links op = 0 := by
  induction h with
  | literal | name | group | unary => rfl
  | primary _ ih => exact ih trivial
  | first t _ ih => exact ih (Rule.tighter_operand hr.le)
  | @link t d k left right o _ ho =>
    have hne : Tier.of? o.kind ≠ Tier.of? op.kind := by
      rw [Tier.of?_eq_some ho, Tier.of?_eq_some hop]
      rintro ⟨⟩
      exact lt_irrefl _ hr
    rw [links, if_neg hne]
  | level _ ih => exact ih hr
  | equality | assign => exact hr.elim

lemma links_chain {tier : Tier} {k d : ℕ} {e : Expr} (h : e.Derives (.chain tier k) d) {op : Token}
    (hop : tier.isOperator op.kind = true) : e.links op = k := by
  induction k generalizing e with
  | zero =>
    cases h with
    | first _ h => exact h.links_eq_zero (Rule.tighter_operand le_rfl) hop
  | succ k ih =>
    cases h with
    | link h ho =>
      rw [links, if_pos ((Tier.of?_eq_some ho).trans (Tier.of?_eq_some hop).symm), ih h]

lemma depth_le {rule : Rule} {d : ℕ} {e : Expr} (h : e.Derives rule d) (hd : d ≤ maxNesting) :
    ∀ l ∈ e.leaves d, l.depth ≤ maxNesting := by
  intro l hl
  induction h generalizing l with
  | literal | name =>
    obtain rfl := List.mem_singleton.mp hl
    exact hd
  | group hlt _ ih | unary _ hlt _ ih | assign _ hlt _ ih =>
    obtain ⟨inner, hinner, rfl⟩ := List.mem_map.mp hl
    exact ih hlt inner hinner
  | primary _ ih | first _ _ ih | level _ ih | equality _ ih => exact ih hd l hl
  | link h hop hlt _ ihl ihr =>
    rw [leaves, h.links_chain hop] at hl
    rcases List.mem_append.mp hl with hl | hl
    · obtain ⟨inner, hinner, rfl⟩ := List.mem_map.mp hl
      exact ihl hd inner hinner
    · obtain ⟨inner, hinner, rfl⟩ := List.mem_map.mp hl
      exact ihr hlt inner hinner

end Expr.Derives

def Tier.operator : Tier → Symbol
  | .equality => .equalEqual
  | .comparison => .less
  | .term => .plus
  | .factor => .star

namespace Expr

def one : Expr :=
  .literal (.number 1)

def chained (tier : Tier) (e : Expr) : ℕ → Expr
  | 0 => e
  | k + 1 => .binary (chained tier e k) (Mark.any (.symbol tier.operator)).token one

lemma derives_one (tier : Tier) (d : ℕ) : one.Derives tier.operand d :=
  .asOperand tier (.primary (.literal _))

lemma Derives.chained (tier : Tier) {d k : ℕ} {e : Expr} (h : e.Derives tier.operand d) (hk : d + k ≤ maxNesting) :
    (e.chained tier k).Derives (.chain tier k) d := by
  induction k with
  | zero => exact .first tier h
  | succ k ih => exact .link (ih (by omega)) (by cases tier <;> rfl) (by omega) (derives_one tier _)

lemma exists_leaf_chained (tier : Tier) {e : Expr} {d m : ℕ} (h : ∃ l ∈ e.leaves d, l.nodes = m) (k : ℕ) :
    ∃ l ∈ (e.chained tier k).leaves d, l.nodes = m + k := by
  induction k with
  | zero => exact h
  | succ k ih =>
    obtain ⟨l, hl, hn⟩ := ih
    refine ⟨l.leftOf, List.mem_append_left _ (List.mem_map_of_mem hl), ?_⟩
    rw [Leaf.leftOf, hn, Nat.add_assoc]

end Expr

namespace Parsed

/-- The cap on depth is kept. The same cap on the nodes above a leaf is kept exactly by those inputs where no leaf has
more later operators in its chains than earlier ones and the levels it has to spare. -/
theorem ofTokens_nodes_le_iff (tokens : List Token) (parsed : Parsed) (h : ofTokens tokens = .ok parsed) :
    (∀ s ∈ parsed.statements, ∀ l ∈ s.leaves 0, l.depth ≤ maxNesting) ∧
      ((∀ s ∈ parsed.statements, ∀ l ∈ s.leaves 0, l.nodes ≤ maxNesting) ↔
        ∀ s ∈ parsed.statements, ∀ l ∈ s.leaves 0, l.later ≤ l.earlier + (maxNesting - l.depth)) := by
  have hd := (ofTokens_ok h).1
  have hdepth : ∀ s ∈ parsed.statements, ∀ l ∈ s.leaves 0, l.depth ≤ maxNesting := fun s hs =>
    (hd s hs).leaves_induction (fun _ _ hle he => he.depth_le hle) (fun _ _ _ hl => hl) (Nat.zero_le _)
  have hnodes : ∀ s ∈ parsed.statements, ∀ l ∈ s.leaves 0, l.nodes + l.earlier = l.depth + l.later := by
    intro s hs l hl
    have hl := (hd s hs).leaves_induction (P := fun d l => l.nodes + d + l.earlier = l.depth + l.later)
      (fun _ _ _ _ _ => Expr.leaves_nodes) (fun d l _ hl => ?_) (Nat.zero_le _) l hl
    · simpa using hl
    · simp only [Leaf.under]
      omega
  refine ⟨hdepth, ?_, ?_⟩
  · intro hcap s hs l hl
    have := hcap s hs l hl
    have := hdepth s hs l hl
    have := hnodes s hs l hl
    omega
  · intro hlater s hs l hl
    have := hlater s hs l hl
    have := hdepth s hs l hl
    have := hnodes s hs l hl
    omega

def sumOfProduct : Stmt :=
  .expression ((Expr.one.chained .factor 1).chained .term maxNesting)

lemma ofTokens_sumOfProduct :
    ofTokens ((Stmt.spellingEach [sumOfProduct]).map Mark.token ++ [Token.endAt 1]) = .ok ⟨[sumOfProduct], []⟩ := by
  have hfactor : Expr.Derives (.level .factor) 0 (Expr.one.chained .factor 1) :=
    .level (.chained .factor (Expr.derives_one .factor 0) (by decide))
  have hterm : Expr.Derives (.level .term) 0 ((Expr.one.chained .factor 1).chained .term maxNesting) :=
    .level (.chained .term hfactor (by omega))
  have h : sumOfProduct.Derives 0 :=
    .expression (.equality (.level (.first .equality (.level (.first .comparison hterm)))))
  exact ofTokens_of_spells _ (by simpa using h) (.map_token _) rfl

theorem ofTokens_nodes_le_iff_sumOfProduct :
    (∀ l ∈ sumOfProduct.leaves 0, l.depth ≤ maxNesting) ∧
      ((∀ l ∈ sumOfProduct.leaves 0, l.nodes ≤ maxNesting) ↔
        ∀ l ∈ sumOfProduct.leaves 0, l.later ≤ l.earlier + (maxNesting - l.depth)) := by
  simpa using ofTokens_nodes_le_iff _ _ ofTokens_sumOfProduct

theorem nodes_sumOfProduct :
    ofTokens ((Stmt.spellingEach [sumOfProduct]).map Mark.token ++ [Token.endAt 1]) = .ok ⟨[sumOfProduct], []⟩ ∧
      ∃ l ∈ sumOfProduct.leaves 0, l.nodes = maxNesting + 1 := by
  have hone : ∃ l ∈ Expr.one.leaves 0, l.nodes = 0 := ⟨_, .head _, rfl⟩
  obtain ⟨l, hl, hn⟩ := Expr.exists_leaf_chained .term (Expr.exists_leaf_chained .factor hone 1) maxNesting
  exact ⟨ofTokens_sumOfProduct, l, hl, by omega⟩

end Parsed

end Lox
