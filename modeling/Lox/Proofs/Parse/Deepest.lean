import Lox.Proofs.Parse.Leaves
import Mathlib.Order.Bounds.Basic

namespace Lox

namespace Rule

/-- The most nodes above a leaf of a unary expression with `n` levels to spare: a group around the deepest expression
with one level less, which stacks a full chain of each tier on the deepest unary expression. -/
def deepestUnary : ℕ → ℕ
  | 0 => 0
  | n + 1 => deepestUnary n + 4 * n + 1

def deepest (n : ℕ) : Rule → ℕ
  | .assignment => deepestUnary n + 4 * n
  | .level tier => deepestUnary n + tier.stacked * n
  | .chain tier links => deepestUnary n + (tier.stacked - 1) * n + links
  | .unary | .primary => deepestUnary n

lemma deepestUnary_mono : Monotone deepestUnary :=
  monotone_nat_of_le_succ fun n => by
    rw [deepestUnary]
    omega

lemma deepest_operand (tier : Tier) (n : ℕ) : deepest n tier.operand = deepest n (.chain tier 0) := by
  cases tier <;> simp [deepest, Tier.operand, Tier.stacked]

lemma deepest_operand_mono (tier : Tier) {m n : ℕ} (h : m ≤ n) : deepest m tier.operand ≤ deepest n tier.operand := by
  have hu := deepestUnary_mono h
  cases tier <;> simp only [deepest, Tier.operand, Tier.stacked] <;> omega

lemma deepest_assignment (n : ℕ) : deepest n .assignment = 2 * n * n + 3 * n := by
  have h : deepestUnary n + n = 2 * (n * n) := by
    induction n with
    | zero => rfl
    | succ n ih =>
      rw [deepestUnary, Nat.mul_succ, Nat.succ_mul n n]
      omega
  rw [deepest, Nat.mul_assoc]
  omega

end Rule

namespace Expr.Derives

lemma links_le {tier : Tier} {links d : ℕ} {e : Expr} (h : e.Derives (.chain tier links) d) :
    links ≤ maxNesting - d := by
  cases h with
  | first => exact Nat.zero_le _
  | link _ _ hlt _ => omega

lemma nodes_le {rule : Rule} {d : ℕ} {e : Expr} (h : e.Derives rule d) (c : ℕ) :
    ∀ l ∈ e.leaves c, l.nodes ≤ rule.deepest (maxNesting - d) := by
  intro l hl
  induction h generalizing c l with
  | literal | name =>
    obtain rfl := List.mem_singleton.mp hl
    exact Nat.zero_le _
  | @group d e hlt _ ih | @unary d op e _ hlt _ ih | @assign d name e _ hlt _ ih =>
    obtain ⟨inner, hinner, rfl⟩ := List.mem_map.mp hl
    have hn := ih (c + 1) inner hinner
    rw [show maxNesting - d = maxNesting - (d + 1) + 1 by omega]
    simp only [Leaf.under, Rule.deepest, Rule.deepestUnary] at hn ⊢
    omega
  | primary _ ih | equality _ ih => exact ih c l hl
  | first tier _ ih =>
    rw [← Rule.deepest_operand]
    exact ih c l hl
  | @link tier d k left right op _ _ hlt _ ihl ihr =>
    rcases List.mem_append.mp hl with hl | hl
    · obtain ⟨inner, hinner, rfl⟩ := List.mem_map.mp hl
      have hn := ihl c inner hinner
      simp only [Leaf.leftOf, Rule.deepest] at hn ⊢
      omega
    · obtain ⟨inner, hinner, rfl⟩ := List.mem_map.mp hl
      have hn := (ihr _ inner hinner).trans (Rule.deepest_operand_mono tier (n := maxNesting - d) (by omega))
      rw [Rule.deepest_operand] at hn
      simp only [Leaf.rightOf, Rule.deepest] at hn ⊢
      omega
  | @level tier d k e h ih =>
    have hk := h.links_le
    refine (ih c l hl).trans ?_
    cases tier <;> simp only [Rule.deepest, Tier.stacked] <;> omega

end Expr.Derives

namespace Expr

def stacked (e : Expr) (k : ℕ) : Expr :=
  chained .equality (chained .comparison (chained .term (chained .factor e k) k) k) k

def tower : ℕ → Expr
  | 0 => one
  | n + 1 => stacked (.group (tower n)) (n + 1)

variable {d n : ℕ} {e : Expr}

lemma Derives.stacked (h : e.Derives .unary d) (hn : d + n ≤ maxNesting) : (e.stacked n).Derives .assignment d := by
  have hfactor : Derives (.level .factor) d _ := .level (chained .factor h hn)
  have hterm : Derives (.level .term) d _ := .level (chained .term hfactor hn)
  have hcomparison : Derives (.level .comparison) d _ := .level (chained .comparison hterm hn)
  exact .equality (.level (chained .equality hcomparison hn))

lemma tower_derives (h : d + n = maxNesting) : (tower n).Derives .assignment d := by
  induction n generalizing d with
  | zero => exact .equality (.level (.first .equality (derives_one .equality d)))
  | succ n ih => exact .stacked (.primary (.group (by omega) (ih (by omega)))) (by omega)

lemma exists_leaf_tower (n d : ℕ) : ∃ l ∈ (tower n).leaves d, l.nodes = Rule.deepest n .assignment := by
  induction n generalizing d with
  | zero => exact ⟨_, .head _, rfl⟩
  | succ n ih =>
    obtain ⟨l, hl, hn⟩ := ih (d + 1)
    have hgroup : ∃ l ∈ (Expr.group (tower n)).leaves d, l.nodes = Rule.deepest n .assignment + 1 :=
      ⟨l.under, List.mem_map_of_mem hl, by rw [Leaf.under, hn]⟩
    have hfactor := exists_leaf_chained .factor hgroup (n + 1)
    have hterm := exists_leaf_chained .term hfactor (n + 1)
    have hcomparison := exists_leaf_chained .comparison hterm (n + 1)
    obtain ⟨l, hl, hn⟩ := exists_leaf_chained .equality hcomparison (n + 1)
    refine ⟨l, hl, hn.trans ?_⟩
    simp only [Rule.deepest, Rule.deepestUnary]
    omega

def paths : Expr → List (List Expr)
  | .literal _ | .variable _ => [[]]
  | .assign name value => value.paths.map (.assign name value :: ·)
  | .unary op operand => operand.paths.map (.unary op operand :: ·)
  | .binary left op right => (left.paths ++ right.paths).map (.binary left op right :: ·)
  | .group inner => inner.paths.map (.group inner :: ·)

lemma map_length_paths (e : Expr) (d : ℕ) : e.paths.map List.length = (e.leaves d).map Leaf.nodes := by
  induction e generalizing d with
  | literal | «variable» => rfl
  | assign _ _ ih | unary _ _ ih | group _ ih =>
    have h := congrArg (List.map (· + 1)) (ih (d + 1))
    simpa [paths, leaves, Leaf.under, Function.comp_def] using h
  | binary left op right ihl ihr =>
    have hl := congrArg (List.map (· + 1)) (ihl d)
    have hr := congrArg (List.map (· + 1)) (ihr (d + left.links op + 1))
    simp only [List.map_map, Function.comp_def] at hl hr
    simp only [paths, leaves, Leaf.leftOf, Leaf.rightOf, List.map_append, List.map_map, Function.comp_def,
      List.length_cons, hl, hr]

lemma exists_path_iff (e : Expr) (d k : ℕ) :
    (∃ path ∈ e.paths, path.length = k) ↔ ∃ l ∈ e.leaves d, l.nodes = k := by
  rw [← List.mem_map, ← List.mem_map, map_length_paths e d]

inductive StandsIn (e : Expr) : ℕ → Stmt → Prop
  | expression : StandsIn e 0 (.expression e)
  | print : StandsIn e 0 (.print e)
  | init (name : Token) : StandsIn e 0 (.var name (some e))
  | block {b : ℕ} {s : Stmt} {body : List Stmt} : s ∈ body → StandsIn e b s → StandsIn e (b + 1) (.block body)

lemma StandsIn.derives {b : ℕ} {s : Stmt} (h : e.StandsIn b s) (hs : s.Derives d) (hd : d ≤ maxNesting) :
    d + b ≤ maxNesting ∧ e.Derives .assignment (d + b) := by
  induction h generalizing d with
  | expression =>
    cases hs with
    | expression he => exact ⟨hd, he⟩
  | print =>
    cases hs with
    | print he => exact ⟨hd, he⟩
  | init =>
    cases hs with
    | var _ he => exact ⟨hd, he e rfl⟩
  | block hmem _ ih =>
    cases hs with
    | block hlt hbody =>
      have hin := ih (hbody _ hmem) hlt
      rwa [Nat.add_right_comm] at hin

end Expr

namespace Stmt

def inBlocks (s : Stmt) : ℕ → Stmt
  | 0 => s
  | b + 1 => .block [s.inBlocks b]

lemma Derives.inBlocks {s : Stmt} {d b : ℕ} (h : s.Derives (d + b)) (hb : d + b ≤ maxNesting) :
    (s.inBlocks b).Derives d := by
  induction b generalizing d with
  | zero => exact h
  | succ b ih =>
    refine .block (by omega) fun t ht => ?_
    obtain rfl := List.mem_singleton.mp ht
    rw [← Nat.add_assoc, Nat.add_right_comm] at h hb
    exact ih h hb

lemma standsIn_inBlocks (e : Expr) (b : ℕ) : e.StandsIn b ((Stmt.expression e).inBlocks b) := by
  induction b with
  | zero => exact .expression
  | succ b ih => exact .block (List.mem_singleton_self _) ih

end Stmt

namespace Parsed

def Returns (s : Stmt) : Prop :=
  ∃ tokens parsed, ofTokens tokens = .ok parsed ∧ s ∈ parsed.statements

lemma returns_iff {s : Stmt} : Returns s ↔ s.Derives 0 := by
  constructor
  · rintro ⟨tokens, parsed, h, hs⟩
    exact (ofTokens_ok h).1 s hs
  · intro h
    refine ⟨_, _, ofTokens_of_spells [s] ?_ (.map_token _) (Token.isEof_endAt 1), List.mem_singleton_self s⟩
    simpa using h

theorem isGreatest_nodes :
    IsGreatest {n | ∃ s, Returns s ∧ ∃ l ∈ s.leaves 0, l.nodes = n}
      (2 * maxNesting * maxNesting + 3 * maxNesting) := by
  constructor
  · obtain ⟨l, hl, hn⟩ := Expr.exists_leaf_tower maxNesting 0
    refine ⟨.expression (Expr.tower maxNesting), returns_iff.mpr ?_, l, hl, hn.trans (Rule.deepest_assignment _)⟩
    exact .expression (Expr.tower_derives (Nat.zero_add _))
  · rintro _ ⟨s, hs, l, hl, rfl⟩
    rw [← Rule.deepest_assignment]
    refine (returns_iff.mp hs).leaves_induction (P := fun d l => l.nodes ≤ Rule.deepest (maxNesting - d) .assignment)
      (fun d e _ he => he.nodes_le d) (fun d l hlt hl => ?_) (Nat.zero_le _) l hl
    rw [show maxNesting - d = maxNesting - (d + 1) + 1 by omega]
    simp only [Leaf.under, Rule.deepest, Rule.deepestUnary] at hl ⊢
    omega

lemma ofTokens_tower {b n : ℕ} (h : b + n = maxNesting) :
    ofTokens ((Stmt.spellingEach [(Stmt.expression (Expr.tower n)).inBlocks b]).map Mark.token ++ [Token.endAt 1]) =
      .ok ⟨[(Stmt.expression (Expr.tower n)).inBlocks b], []⟩ := by
  have htower : (Stmt.expression (Expr.tower n)).Derives (0 + b) := .expression (Expr.tower_derives (by omega))
  refine ofTokens_of_spells [_] ?_ (.map_token _) (Token.isEof_endAt 1)
  simpa using htower.inBlocks (by omega)

lemma exists_path_tower (n : ℕ) : ∃ path ∈ (Expr.tower n).paths, path.length = 2 * n * n + 3 * n := by
  obtain ⟨l, hl, hn⟩ := Expr.exists_leaf_tower n 0
  rw [Expr.exists_path_iff _ 0]
  exact ⟨l, hl, hn.trans (Rule.deepest_assignment n)⟩

theorem ofTokens_longest_path :
    (∀ tokens parsed, ofTokens tokens = .ok parsed → ∀ s ∈ parsed.statements, ∀ b e, Expr.StandsIn e b s →
      b ≤ maxNesting ∧
        ∀ path ∈ e.paths, path.length ≤ 2 * (maxNesting - b) * (maxNesting - b) + 3 * (maxNesting - b)) ∧
    (∀ b ≤ maxNesting, ∃ tokens s e, ofTokens tokens = .ok ⟨[s], []⟩ ∧ Expr.StandsIn e b s ∧
      ∃ path ∈ e.paths, path.length = 2 * (maxNesting - b) * (maxNesting - b) + 3 * (maxNesting - b)) ∧
    ∃ tokens e, ofTokens tokens = .ok ⟨[.expression e], []⟩ ∧ ∃ path ∈ e.paths, path.length = 33152 := by
  refine ⟨?_, ?_, ?_⟩
  · intro tokens parsed h s hs b e he
    obtain ⟨hb, hder⟩ := he.derives ((ofTokens_ok h).1 s hs) (Nat.zero_le _)
    rw [Nat.zero_add] at hb hder
    refine ⟨hb, fun path hpath => ?_⟩
    obtain ⟨l, hl, hn⟩ := (Expr.exists_path_iff e b _).mp ⟨path, hpath, rfl⟩
    rw [← hn, ← Rule.deepest_assignment]
    exact hder.nodes_le b l hl
  · intro b hb
    have htokens := ofTokens_tower (Nat.add_sub_cancel' hb)
    exact ⟨_, _, _, htokens, Stmt.standsIn_inBlocks _ b, exists_path_tower _⟩
  · exact ⟨_, _, ofTokens_tower (Nat.zero_add maxNesting), exists_path_tower maxNesting⟩

theorem ofTokens_longest_path_innermost :
    ofTokens ((Stmt.spellingEach [(Stmt.expression (Expr.tower 1)).inBlocks 127]).map Mark.token ++ [Token.endAt 1]) =
        .ok ⟨[(Stmt.expression (Expr.tower 1)).inBlocks 127], []⟩ ∧
      (Expr.tower 1).StandsIn 127 ((Stmt.expression (Expr.tower 1)).inBlocks 127) ∧ 127 ≤ maxNesting ∧
      (∀ path ∈ (Expr.tower 1).paths, path.length ≤ 5) ∧ ∃ path ∈ (Expr.tower 1).paths, path.length = 5 := by
  have htokens := ofTokens_tower (b := 127) (n := 1) rfl
  have hin := Stmt.standsIn_inBlocks (Expr.tower 1) 127
  obtain ⟨hb, hle⟩ := ofTokens_longest_path.1 _ _ htokens _ (List.mem_singleton_self _) 127 _ hin
  exact ⟨htokens, hin, hb, hle, by decide⟩

end Parsed

end Lox
