import Lox.Proofs.Parse.Recursion

/-! The depth counter. It is counted up on the way into a level and down on the way out, set back where a chain ends,
and set back in recovery, but not where a chain stops at a fault. It never leaves its range for all that. -/

namespace Lox

variable {α : Type}

/-- Where a parser that was entered can be: not past the limit, and so that the counter can be counted down. -/
def Cursor.InRange (c : Cursor) : Prop :=
  0 < c.depth ∧ c.depth ≤ maxNesting

instance (c : Cursor) : Decidable c.InRange :=
  inferInstanceAs (Decidable (_ ∧ _))

namespace Parser

def watched (alarm : Stop) (p : Parser α) : Parser α := fun c =>
  if c.InRange then
    match p c with
    | .ok a d => if d.InRange then .ok a d else .error alarm d
    | .error x d => if d.InRange then .error x d else .error alarm d
  else .error alarm c

lemma MovedAt.watched {f : ℕ → ℕ} {m : Mode} {n : ℕ} {g : α → α} {p q : Parser α} (h : MovedAt f m n g p q)
    (alarm : Stop) (hpos : 0 < n) (hmax : n ≤ maxNesting) : MovedAt f m n g (Parser.watched alarm p) q := by
  have hrange {d : Cursor} (hd : d.Deep n) : d.InRange :=
    ⟨hpos.trans_le hd.1, hd.le hmax⟩
  refine h.congr_left fun c hc => ?_
  have hends := (h c hc).ends
  rw [Parser.watched, if_pos (hrange (.of_eq hc))]
  cases hp : p c with
  | ok a d => exact if_pos (hrange (hends.ok hp).deep)
  | error x d => exact if_pos (hrange (hends.stop hp).1)

end Parser

namespace Layer

variable (alarm : Stop)

def watched (l : Layer) : Layer where
  expression := l.expression.watched alarm
  level tier := (l.level tier).watched alarm
  chain tier left := (l.chain tier left).watched alarm
  unary := l.unary.watched alarm
  primary := l.primary.watched alarm
  declaration := l.declaration.watched alarm
  statement := l.statement.watched alarm
  block := l.block.watched alarm

def watchedAbove : ℕ → Layer
  | 0 => climb (refuse.watched alarm)
  | n + 1 => climb ((watchedAbove n).watched alarm)

variable {alarm}

lemma watched_moving {n : ℕ} {l l' : Layer} (h : (Logic.moving id).Layers n l l') (hpos : 0 < n)
    (hmax : n ≤ maxNesting) : (Logic.moving id).Layers n (l.watched alarm) l' where
  expression := h.expression.watched alarm hpos hmax
  level tier := (h.level tier).watched alarm hpos hmax
  chain tier left := (h.chain tier left).watched alarm hpos hmax
  unary := h.unary.watched alarm hpos hmax
  primary := h.primary.watched alarm hpos hmax
  statement := h.statement.watched alarm hpos hmax
  declaration := h.declaration.watched alarm hpos hmax
  block := h.block.watched alarm hpos hmax

lemma watchedAbove_moving {k n : ℕ} (h : k + n = maxNesting) :
    (Logic.moving id).Layers n (watchedAbove alarm k) (above k) := by
  induction k generalizing n with
  | zero => exact climb_moving fun hlt => absurd hlt (by omega)
  | succ k ih => exact climb_moving fun hlt => watched_moving (ih (by omega)) n.succ_pos hlt

theorem whole_keeps_depth (c : Cursor) (hc : c.depth ≤ maxNesting) :
    (∀ {α : Type} (x : Nonterminal α), Ends (whole.parser x) c (fun _ d => d.depth = c.depth)
      (fun s d => c.depth ≤ d.depth ∧ d.depth ≤ maxNesting ∧ s.Ordinary)) ∧
    (∀ {α : Type} (x : Nonterminal α), c.depth < maxNesting →
      Ends (whole.parser x) { c with depth := c.depth + 1 } (fun _ d => 0 < d.depth) (fun _ d => 0 < d.depth)) ∧
    (∀ (alarm : Stop) {α : Type} (x : Nonterminal α),
      (watchedAbove alarm (maxNesting - c.depth)).parser x c = whole.parser x c) ∧
    ∀ inBlock : Bool, Ends (Parser.recovering inBlock whole.declaration) c (fun _ d => d.depth = c.depth)
      (fun s d => s = .internal .missingEnd ∧ (∀ t ∈ c.rest, t.isEof = false) ∧ c.depth ≤ d.depth ∧
        d.depth ≤ maxNesting) := by
  have hself {α : Type} (x : Nonterminal α) (d : Cursor) := (parser_sameAt (whole_moving d.depth) x).ends d rfl
  refine ⟨fun x => ?_, fun x _ => ?_, fun alarm _ x => ?_, fun inBlock => ?_⟩
  · apply (hself x c).mono (fun _ _ => id)
    rintro s d ⟨hd, hs⟩
    exact ⟨hd.1, hd.le hc, hs⟩
  · apply (hself x { c with depth := c.depth + 1 }).mono
    · intro _ d hd
      exact hd ▸ c.depth.succ_pos
    · exact fun s d hs => Nat.lt_of_lt_of_le c.depth.succ_pos hs.1.1
  · rw [parser_whole]
    exact (parser_sameAt (watchedAbove_moving (Nat.sub_add_cancel hc)) x).eq c rfl
  · apply (ends_recovering_whole inBlock c).mono (fun _ _ h => h.1)
    rintro s d ⟨hd, hs, -, hno⟩
    exact ⟨hs, hno, hd.1, hd.le hc⟩

def steepSum : Cursor :=
  -- `nil + nil + nil;` one level below the limit: the second `+` is one too many.
  ⟨[⟨.keyword .nilKw, "nil", 1⟩, ⟨.symbol .plus, "+", 1⟩, ⟨.keyword .nilKw, "nil", 1⟩, ⟨.symbol .plus, "+", 1⟩,
    ⟨.keyword .nilKw, "nil", 1⟩, ⟨.symbol .semicolon, ";", 1⟩, Token.endAt 1], 127, []⟩

theorem whole_keeps_depth_steepSum :
    steepSum.depth ≤ maxNesting ∧
    (∃ s d, whole.parser (.level .term) steepSum = .error s d ∧ d.depth = steepSum.depth + 1 ∧
      steepSum.depth ≤ d.depth ∧ d.depth ≤ maxNesting ∧ s.Ordinary) ∧
    ∃ d, Parser.recovering false whole.declaration steepSum = .ok none d ∧ d.depth = steepSum.depth := by
  have hdepth : steepSum.depth ≤ maxNesting := by decide
  obtain ⟨hkeeps, -, -, hrecovers⟩ := whole_keeps_depth steepSum hdepth
  have hfault : whole.parser (.level .term) steepSum =
      .error (.fault ⟨.tooMuchNesting, 1, .atLexeme "nil"⟩) ⟨steepSum.rest.drop 4, 128, []⟩ := rfl
  have hnone : Parser.recovering false whole.declaration steepSum =
      .ok none ⟨[Token.endAt 1], 127, [⟨.tooMuchNesting, 1, .atLexeme "nil"⟩]⟩ := rfl
  exact ⟨hdepth, ⟨_, _, hfault, rfl, (hkeeps (.level .term)).stop hfault⟩, _, hnone, (hrecovers false).ok hnone⟩

end Layer

end Lox
