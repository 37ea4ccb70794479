import Lox.Proofs.Parse.Blocks
import Lox.Proofs.Parse.Lines

/-! The parsing functions as one recursion. Each of them comes back to the depth where it began, so the layer that was
picked for the cursor's depth stays the right one, and the functions that pick it call each other as they are. -/

namespace Lox

variable {α : Type} {n : ℕ}

lemma Cursor.mapLine_id (c : Cursor) : c.mapLine id = c := by
  have htokens : Token.mapLine id = id := rfl
  have hfaults : SyntaxFault.mapLine id = id := rfl
  rw [mapLine, htokens, hfaults, List.map_id, List.map_id]

lemma Stop.mapLine_id (x : Stop) : x.mapLine id = x := by
  cases x with
  | fault f => rfl
  | internal f => rw [mapLine, f.mapLine_id]

namespace Parser

structure SameAt (n : ℕ) (p q : Parser α) : Prop where
  eq : ∀ c, c.depth = n → p c = q c
  ends : ∀ c, c.depth = n → Ends p c (fun _ d => d.depth = n) (fun x d => d.Deep n ∧ x.Ordinary)

namespace MovedAt

variable {m : Mode} {g : α → α} {p p' q : Parser α}

lemma eq_of_id (h : MovedAt id m n g p q) (hg : ∀ a, g a = a) {c : Cursor} (hc : c.depth = n) : p c = q c := by
  have heq := (h c hc).eq
  rw [c.mapLine_id] at heq
  rw [heq]
  cases p c with
  | ok a d => rw [moved, hg, d.mapLine_id]
  | error x d => rw [moved, x.mapLine_id, d.mapLine_id]

lemma sameAt (h : MovedAt id m n g p q) (hg : ∀ a, g a = a) (hm : m ≠ .opened) : SameAt n p q :=
  ⟨fun _ hc => h.eq_of_id hg hc, fun c hc => (h.inMode (m := .within) (.inr hm) c hc).ends⟩

lemma congr_left {f : ℕ → ℕ} (h : MovedAt f m n g p q) (hp : ∀ c, c.depth = n → p' c = p c) : MovedAt f m n g p' q :=
  fun c hc => (h c hc).of_eq (hp c hc) rfl

end MovedAt

end Parser

inductive Nonterminal : Type → Type
  | declaration : Nonterminal Stmt
  | statement : Nonterminal Stmt
  | block : Nonterminal (List Stmt)
  | assignment : Nonterminal Expr
  | level (tier : Tier) : Nonterminal Expr
  | unary : Nonterminal Expr
  | primary : Nonterminal Expr

namespace Layer

def parser (l : Layer) : {α : Type} → Nonterminal α → Parser α
  | _, .declaration => l.declaration
  | _, .statement => l.statement
  | _, .block => l.block
  | _, .assignment => l.expression
  | _, .level tier => l.level tier
  | _, .unary => l.unary
  | _, .primary => l.primary

lemma parser_sameAt {l l' : Layer} (h : (Logic.moving id).Layers n l l') (x : Nonterminal α) :
    Parser.SameAt n (l.parser x) (l'.parser x) := by
  cases x with
  | declaration => exact h.declaration.sameAt Stmt.mapLine_id (by decide)
  | statement => exact h.statement.sameAt Stmt.mapLine_id (by decide)
  | block => exact h.block.sameAt Stmt.mapLineEach_id (by decide)
  | assignment => exact h.expression.sameAt Expr.mapLine_id (by decide)
  | level tier => exact (h.level tier).sameAt Expr.mapLine_id (by decide)
  | unary => exact h.unary.sameAt Expr.mapLine_id (by decide)
  | primary => exact h.primary.sameAt Expr.mapLine_id (by decide)

lemma chain_eq {l l' : Layer} (h : (Logic.moving id).Layers n l l') (tier : Tier) (left : Expr) {c : Cursor}
    (hc : c.depth = n) : l.chain tier left c = l'.chain tier left c := by
  have hchain := h.chain tier left
  rw [Logic.moving, left.mapLine_id] at hchain
  exact hchain.eq_of_id Expr.mapLine_id hc

lemma above_sub_of_lt (hn : n < maxNesting) : above (maxNesting - n) = climb (above (maxNesting - (n + 1))) := by
  rw [show maxNesting - n = maxNesting - (n + 1) + 1 by omega]
  rfl

lemma above_sub_of_le (hn : maxNesting ≤ n) : above (maxNesting - n) = climb refuse := by
  rw [show maxNesting - n = 0 by omega]
  rfl

lemma climb_moving_above {l : Layer}
    (h : n < maxNesting → (Logic.moving id).Layers (n + 1) l (above (maxNesting - (n + 1)))) :
    (Logic.moving id).Layers n (climb l) (above (maxNesting - n)) := by
  rcases Nat.lt_or_ge n maxNesting with hn | hn
  · rw [above_sub_of_lt hn]
    exact climb_moving h
  · rw [above_sub_of_le hn]
    exact climb_moving fun hlt => absurd hlt (Nat.not_lt.mpr hn)

/-- The parsing functions, each at the layer for the depth where it begins. -/
def whole : Layer where
  expression := run (·.expression)
  level tier := run (·.level tier)
  chain tier left := run (·.chain tier left)
  unary := run (·.unary)
  primary := run (·.primary)
  declaration := run (·.declaration)
  statement := run (·.statement)
  block := run (·.block)

lemma parser_whole {α : Type} (x : Nonterminal α) (c : Cursor) :
    whole.parser x c = (above (maxNesting - c.depth)).parser x c := by
  cases x <;> rfl

lemma run_of_depth (p : Layer → Parser α) {c : Cursor} (hc : c.depth = n) :
    run p c = p (above (maxNesting - n)) c := by
  rw [run, hc]

lemma whole_moving (n : ℕ) : (Logic.moving id).Layers n whole (above (maxNesting - n)) := by
  have h := above_moving (f := id) (maxNesting - n) n
  exact
    { expression := h.expression.congr_left fun _ => run_of_depth (·.expression)
      level := fun tier => (h.level tier).congr_left fun _ => run_of_depth (·.level tier)
      chain := fun tier left => (h.chain tier left).congr_left fun _ => run_of_depth (·.chain tier left)
      unary := h.unary.congr_left fun _ => run_of_depth (·.unary)
      primary := h.primary.congr_left fun _ => run_of_depth (·.primary)
      statement := h.statement.congr_left fun _ => run_of_depth (·.statement)
      declaration := h.declaration.congr_left fun _ => run_of_depth (·.declaration)
      block := h.block.congr_left fun _ => run_of_depth (·.block) }

theorem climb_whole : climb whole = whole := by
  have h (c : Cursor) : (Logic.moving id).Layers c.depth (climb whole) (above (maxNesting - c.depth)) :=
    climb_moving_above fun _ => whole_moving _
  have hparser {α : Type} (x : Nonterminal α) : (climb whole).parser x = whole.parser x :=
    funext fun c => ((parser_sameAt (h c) x).eq c rfl).trans (parser_whole x c).symm
  have hchain (tier : Tier) (left : Expr) : (climb whole).chain tier left = whole.chain tier left :=
    funext fun c => chain_eq (h c) tier left rfl
  rw [Layer.mk.injEq]
  exact ⟨hparser .assignment, funext fun tier => hparser (.level tier), funext fun tier => funext (hchain tier),
    hparser .unary, hparser .primary, hparser .declaration, hparser .statement, hparser .block⟩

lemma block_whole : whole.block = Parser.block whole.declaration :=
  calc whole.block
    _ = (climb whole).block := by rw [climb_whole]
    _ = Parser.block (climb whole).declaration := rfl
    _ = Parser.block whole.declaration := by rw [climb_whole]

lemma ends_recovering_whole (inBlock : Bool) (c : Cursor) :
    Ends (Parser.recovering inBlock whole.declaration) c (fun _ d => d.depth = c.depth ∧ d.rest <:+ c.rest)
      (fun x d => d.Deep c.depth ∧ x = .internal .missingEnd ∧ d.rest = [] ∧ ∀ t ∈ c.rest, t.isEof = false) := by
  have hdepth := (parser_sameAt (whole_moving c.depth) .declaration).ends c rfl
  have hsettles : whole.declaration.SettlesAt c := above_settles (maxNesting - c.depth) c
  apply ((Parser.ends_recovering_depth inBlock hdepth).and (Parser.recovering_settles inBlock hsettles)).mono
  · rintro o d ⟨hd, ts, fs, k, hr, -⟩
    exact ⟨hd, ts, hr.rest.symm⟩
  · rintro x d ⟨⟨hd, rfl⟩, ⟨ts, fs, k, hr, -⟩, hnil⟩
    refine ⟨hd, rfl, hnil, ?_⟩
    rw [hr.rest, hnil, List.append_nil]
    exact hr.noEnd

end Layer

end Lox
