import Lox.Proofs.Agreement
import Lox.Proofs.Lines
import Lox.Proofs.Parse.Tower

/-! One walk over the parsing functions for all that is said of them. A logic judges parsers by rules for the few things
that they are put together from, and what it says of one layer it then says of the next. -/

namespace Lox

variable {α β : Type}

def Token.Kind.isInner : Token.Kind → Bool
  | .symbol .semicolon | .symbol .leftBrace | .symbol .rightBrace | .eof => false
  | _ => true

lemma Token.Kind.isInner_of {q : Token.Kind → Bool} {k : Token.Kind} (hk : q k = true)
    (hq : q (.symbol .semicolon) = false ∧ q (.symbol .leftBrace) = false ∧ q (.symbol .rightBrace) = false ∧
      q .eof = false) : k.isInner = true := by
  cases k with
  | symbol s => cases s <;> first | rfl | simp [hq] at hk
  | eof => simp [hq] at hk
  | _ => rfl

lemma Token.Kind.isInner_of_beq {k l : Token.Kind} (hk : (k == l) = true) (hl : l.isInner = true) :
    k.isInner = true := by
  rw [eq_of_beq hk]
  exact hl

lemma Token.toExpr_of_isAtom {t : Token} (h : t.kind.isAtom = true) (d : ℕ) :
    ∃ e m, t.toExpr = .ok e ∧ e.Derives .primary d ∧ e.spelling = [m] ∧ m.Accepts t := by
  obtain ⟨kind, lexeme, line⟩ := t
  cases kind with
  | number x => exact ⟨_, _, rfl, .literal _, rfl, rfl⟩
  | string s => exact ⟨_, _, rfl, .literal _, rfl, rfl⟩
  | identifier name => exact ⟨_, _, rfl, .name rfl, rfl, rfl⟩
  | keyword k => cases k <;> simp [Kind.isAtom] at h <;> exact ⟨_, _, rfl, .literal _, rfl, rfl⟩
  | _ => simp [Kind.isAtom] at h

lemma Token.toExpr_mapLine {f : ℕ → ℕ} (t : Token) :
    (t.mapLine f).toExpr = (t.toExpr.map (Expr.mapLine f)).mapError (InternalFault.mapLine f) := by
  obtain ⟨kind, lexeme, line⟩ := t
  cases kind with
  | keyword k => cases k <;> rfl
  | _ => rfl

lemma Expr.Derives.isIdentifier {rule : Rule} {d : ℕ} {name : Token} (h : (Expr.variable name).Derives rule d) :
    name.kind.isIdentifier = true := by
  generalize he : Expr.variable name = e at h
  induction h with
  | name hn => cases he; exact hn
  | primary _ ih | first _ _ ih | level _ ih | equality _ ih => exact ih he
  | _ => cases he

namespace Parser

/-- The faults that are raised at whatever token comes next. -/
abbrev Anywhere (kind : SyntaxFault.Kind) : Prop :=
  kind ≠ .invalidAssignmentTarget ∧ kind ≠ .expectRightBrace

def ifNext (kinds : Token.Kind → Bool) (f : Token → Parser α) (p : Parser α) : Parser α := do
  match ← nextIf kinds with
  | some t => f t
  | none => p

def closing (s : Symbol) (kind : SyntaxFault.Kind) (a : α) : Parser α :=
  ifNext (· == .symbol s) (fun _ => pure a) (failHere kind)

def ifBrace (p q : Parser α) : Parser α := do
  let t ← peek
  if t.kind == .symbol .leftBrace then p else q

def backUp (p : Parser α) : Parser α := do
  let base ← depth
  let a ← p
  setDepth base
  return a

def badTarget (deeper : Parser Expr) (left : Expr) : Parser Expr :=
  ifNext (· == .symbol .equal)
    (fun equals => do
      let _ ← nested deeper
      record (.ofToken .invalidAssignmentTarget equals)
      return left)
    (pure left)

def assigned (deeper : Parser Expr) : Expr → Parser Expr
  | .variable name =>
    ifNext (· == .symbol .equal)
      (fun _ => do
        let value ← nested deeper
        return .assign name value)
      (pure (.variable name))
  | left => badTarget deeper left

lemma closing_eq (s : Symbol) (kind : SyntaxFault.Kind) (a : α) :
    (do expectSymbol s kind; return a) = closing s kind a := by
  rw [expectSymbol, expect, closing, ifNext, bind_assoc, bind_assoc]
  refine bind_congr fun found => ?_
  cases found with
  | some t => rfl
  | none =>
    funext ⟨rest, n, fs⟩
    cases rest <;> rfl

lemma primary_eq (inside : Parser Expr) :
    primary inside = ifNext Token.Kind.isAtom (fun t => ofExcept t.toExpr)
      (ifNext (· == .symbol .leftParen)
        (fun _ => do
          let e ← nested inside
          closing .rightParen .expectRightParen (.group e))
        (failHere .expectExpression)) := by
  funext ⟨rest, n, fs⟩
  cases rest with
  | nil => rfl
  | cons t rest =>
    simp only [primary, closing_eq]
    by_cases ha : t.kind.isAtom = true
    · simp [ifNext, nextIf, peek, advance, bind, EStateM.bind, ha, Token.isEof_of_kind ha rfl]
    by_cases hp : (t.kind == .symbol .leftParen) = true
    · have heof := Token.isEof_of_kind (p := (· == .symbol .leftParen)) hp rfl
      simp [ifNext, nextIf, peek, advance, bind, EStateM.bind, ha, hp, heof]
    · simp [ifNext, nextIf, peek, bind, EStateM.bind, ha, hp]

lemma unary_eq (deeper primary : Parser Expr) :
    unary deeper primary = ifNext isUnaryOperator (fun op => do return .unary op (← nested deeper)) primary :=
  rfl

lemma chain_eq (tier : Tier) (operand : Parser Expr) (more : Expr → Parser Expr) (left : Expr) :
    chain tier operand more left = ifNext tier.isOperator
      (fun op => do
        enter
        let right ← operand
        more (.binary left op right))
      (pure left) := by
  exact bind_congr fun op => by cases op <;> rfl

lemma level_eq (operand : Parser Expr) (chain : Expr → Parser Expr) :
    level operand chain = backUp (operand >>= chain) := by
  simp only [level, backUp, bind_assoc]

lemma assignment_eq (deeper equality : Parser Expr) : assignment deeper equality = equality >>= assigned deeper := by
  refine bind_congr fun left => ?_
  cases left <;> exact bind_congr fun equals => by cases equals <;> rfl

lemma varDeclaration_eq (expression : Parser Expr) :
    varDeclaration expression = ifNext Token.Kind.isIdentifier
      (fun name => ifNext (· == .symbol .equal)
        (fun _ => do
          let e ← expression
          closing .semicolon .expectSemicolonAfterVarDeclaration (.var name (some e)))
        (closing .semicolon .expectSemicolonAfterVarDeclaration (.var name none)))
      (failHere .expectVariableName) := by
  simp only [varDeclaration, expect, closing_eq, ifNext, bind_assoc]
  refine bind_congr fun found => ?_
  cases found with
  | none =>
    funext c
    obtain ⟨rest, n, fs⟩ := c
    cases rest <;> rfl
  | some name =>
    simp only [pure_bind]
    refine bind_congr fun equals => ?_
    cases equals with
    | none => rfl
    | some _ => simp only [map_eq_pure_bind, bind_assoc, pure_bind]

lemma statement_eq (expression : Parser Expr) (block : Parser (List Stmt)) :
    statement expression block = ifNext (· == .keyword .printKw)
      (fun _ => do
        let e ← expression
        closing .semicolon .expectSemicolonAfterValue (.print e))
      (ifBrace (do return .block (← nested block)) do
        let e ← expression
        closing .semicolon .expectSemicolonAfterExpression (.expression e)) := by
  simp only [statement, closing_eq]
  rfl

lemma declaration_eq (expression : Parser Expr) (statement : Parser Stmt) :
    declaration expression statement =
      ifNext (· == .keyword .varKw) (fun _ => varDeclaration expression) statement :=
  rfl

lemma block_eq (declaration : Parser Stmt) :
    block declaration = (do
      let _ ← advance
      let body ← declarations (fun k => k == .symbol .rightBrace || k == .eof) (recovering true declaration)
      closing .rightBrace .expectRightBrace body) := by
  simp only [block, closing_eq]

lemma ifNext_of_kind {kinds : Token.Kind → Bool} {t : Token} {c d : Cursor} (f : Token → Parser α) (p : Parser α)
    (hc : c.rest = t :: d.rest) (hd : d = { c with rest := d.rest }) (ht : (!t.isEof && kinds t.kind) = true) :
    ifNext kinds f p c = f t d := by
  have hnext : nextIf kinds c = .ok (some t) d := by
    simp only [nextIf, hc, ht, if_true]
    rw [← hd]
  exact bind_eq_of_ok hnext

lemma ifNext_of_not {kinds : Token.Kind → Bool} {c : Cursor} (f : Token → Parser α) (p : Parser α)
    (hc : ∀ t ∈ c.rest.head?, (!t.isEof && kinds t.kind) = false) : ifNext kinds f p c = p c := by
  have hnext : nextIf kinds c = .ok none c := by
    cases hr : c.rest with
    | nil => simp only [nextIf, hr]
    | cons t rest => simp only [nextIf, hr, hc t (by simp [hr]), Bool.false_eq_true, if_false]
  exact bind_eq_of_ok hnext

lemma ifNext_cases (kinds : Token.Kind → Bool) (f : Token → Parser α) (p : Parser α) (c : Cursor) :
    ((∀ t ∈ c.rest.head?, (!t.isEof && kinds t.kind) = false) ∧ ifNext kinds f p c = p c) ∨
      ∃ t rest, c.rest = t :: rest ∧ t.isEof = false ∧ kinds t.kind = true ∧
        ifNext kinds f p c = f t { c with rest } := by
  obtain ⟨rest, n, fs⟩ := c
  by_cases h : ∀ t ∈ rest.head?, (!t.isEof && kinds t.kind) = false
  · exact .inl ⟨h, ifNext_of_not f p h⟩
  · push Not at h
    obtain ⟨t, hhead, ht⟩ := h
    obtain ⟨rest, rfl⟩ : ∃ us, rest = t :: us := ⟨_, List.eq_cons_of_mem_head? hhead⟩
    rw [ne_eq, Bool.not_eq_false] at ht
    have hboth := ht
    rw [Bool.and_eq_true, Bool.not_eq_true'] at hboth
    exact .inr ⟨t, rest, rfl, hboth.1, hboth.2, ifNext_of_kind f p rfl rfl ht⟩

end Parser

/-- How a parsing function stands to the declaration that it is part of: it stays within it, or does so without coming
back to its depth, or ends with its `;`, or it is all of a statement, which can be a block. -/
inductive Mode where
  | within | opened | closed | statement
deriving DecidableEq

def Mode.behind : Mode → Mode
  | .statement => .closed
  | m => m

lemma Mode.behind_ne_opened {m : Mode} (h : m ≠ .opened) : m.behind ≠ .opened := by
  cases m <;> first | exact h | decide

def Expr.Spelled (rule : Rule) (n : ℕ) (ms : List Mark) (e : Expr) : Prop :=
  e.Derives rule n ∧ e.spelling = ms

/-- A chain goes on from a left operand that has some links already, begun at depth `base`. -/
def Expr.Chained (tier : Tier) (left : Expr) (n : ℕ) (ms : List Mark) (e : Expr) : Prop :=
  ∀ base links, base + links = n → left.Derives (.chain tier links) base →
    (∃ k, e.Derives (.chain tier k) base) ∧ e.spelling = left.spelling ++ ms

def Stmt.Spelled (n : ℕ) (ms : List Mark) (s : Stmt) : Prop :=
  s.Derives n ∧ s.spelling = ms

open Lox.Parser

/-- What can be said of a parser that begins at some depth, and of another one that reads the same tokens on other
lines: which value it gives for which marks, and how it ends. -/
structure Logic where
  lines : ℕ → ℕ
  /-- The depths below which it looks. -/
  goesBelow : ℕ → Prop
  judge : Mode → ℕ → {α : Type} → (α → α) → (List Mark → α → Prop) → Parser α → Parser α → Prop
  block : ℕ → Parser (List Stmt) → Parser (List Stmt) → Prop
  pure {n : ℕ} {α : Type} {g : α → α} {P : List Mark → α → Prop} {a : α} :
    P [] a → judge .within n g P (pure a) (pure (g a))
  mono {m : Mode} {n : ℕ} {α : Type} {g : α → α} {P Q : List Mark → α → Prop} {p q : Parser α} :
    judge m n g P p q → (∀ ms a, P ms a → Q ms a) → judge m n g Q p q
  opened {n : ℕ} {α : Type} {g : α → α} {P : List Mark → α → Prop} {p q : Parser α} :
    judge .within n g P p q → judge .opened n g P p q
  fail {m : Mode} {n : ℕ} {α : Type} {g : α → α} {P : List Mark → α → Prop} {kind : SyntaxFault.Kind} :
    Anywhere kind → judge m n g P (failHere kind) (failHere kind)
  bind {m : Mode} {n : ℕ} {α β : Type} {g : α → α} {g' : β → β} {P : List Mark → α → Prop}
    {Q : List Mark → β → Prop} {p q : Parser α} {f f' : α → Parser β} : m ≠ .statement → judge .within n g P p q →
    (∀ a, judge m n g' (fun ns b => ∀ ms, P ms a → Q (ms ++ ns) b) (f a) (f' (g a))) →
    judge m n g' Q (p >>= f) (q >>= f')
  take {m : Mode} {n : ℕ} {α : Type} {g : α → α} {P : List Mark → α → Prop} {kinds : Token.Kind → Bool}
    {f f' : Token → Parser α} {p q : Parser α} : (∀ k, kinds k = true → k.isInner = true) →
    (∀ t, kinds t.kind = true → ∃ mark : Mark, mark.Accepts t ∧
      judge m.behind n g (fun ms a => P (mark :: ms) a) (f t) (f' (t.mapLine lines))) →
    judge m n g P p q → judge m n g P (ifNext kinds f p) (ifNext kinds f' q)
  nested {n : ℕ} {α : Type} {g : α → α} {P : List Mark → α → Prop} {p q : Parser α} :
    (goesBelow n → judge .within (n + 1) g P p q) →
    judge .within n g (fun ms a => n < maxNesting ∧ P ms a) (nested p) (nested q)
  enter {n : ℕ} {α : Type} {g : α → α} {P : List Mark → α → Prop} {p q : Parser α} :
    (goesBelow n → judge .opened (n + 1) g (fun ms a => n < maxNesting → P ms a) p q) →
    judge .opened n g P (do enter; p) (do enter; q)
  backUp {n : ℕ} {α : Type} {g : α → α} {P : List Mark → α → Prop} {p q : Parser α} :
    judge .opened n g P p q → judge .within n g P (backUp p) (backUp q)
  badTarget {n : ℕ} {P Q : List Mark → Expr → Prop} {deeper deeper' : Parser Expr} {left : Expr} :
    (goesBelow n → judge .within (n + 1) (Expr.mapLine lines) P deeper deeper') → Q [] left →
    judge .within n (Expr.mapLine lines) Q (badTarget deeper left) (badTarget deeper' (left.mapLine lines))
  semicolon {n : ℕ} {α : Type} {g : α → α} {P : List Mark → α → Prop} {kind : SyntaxFault.Kind} {a : α} :
    Anywhere kind → P [.any (.symbol .semicolon)] a →
    judge .closed n g P (closing .semicolon kind a) (closing .semicolon kind (g a))
  braced {n : ℕ} {b b' : Parser (List Stmt)} {p q : Parser Stmt} : (goesBelow n → block (n + 1) b b') →
    judge .closed n (Stmt.mapLine lines) (Stmt.Spelled n) p q →
    judge .statement n (Stmt.mapLine lines) (Stmt.Spelled n) (ifBrace (do return .block (← Parser.nested b)) p)
      (ifBrace (do return .block (← Parser.nested b')) q)

namespace Logic

variable (L : Logic) {n : ℕ}

abbrev expr (rule : Rule) (n : ℕ) (p q : Parser Expr) : Prop :=
  L.judge .within n (Expr.mapLine L.lines) (Expr.Spelled rule n) p q

abbrev chained (tier : Tier) (n : ℕ) (p q : Expr → Parser Expr) : Prop :=
  ∀ left, L.judge .opened n (Expr.mapLine L.lines) (Expr.Chained tier left n) (p left) (q (left.mapLine L.lines))

abbrev stmt (m : Mode) (n : ℕ) (p q : Parser Stmt) : Prop :=
  L.judge m n (Stmt.mapLine L.lines) (Stmt.Spelled n) p q

variable {L}

lemma primary {inside inside' : Parser Expr} (h : L.goesBelow n → L.expr .assignment (n + 1) inside inside') :
    L.expr .primary n (Parser.primary inside) (Parser.primary inside') := by
  rw [primary_eq, primary_eq]
  refine L.take (fun k hk => Token.Kind.isInner_of hk (by decide)) ?_
    (L.take (fun k hk => Token.Kind.isInner_of_beq hk rfl) ?_ (L.fail (by decide)))
  · intro t ht
    obtain ⟨e, m, he, hd, hs, hm⟩ := t.toExpr_of_isAtom ht n
    refine ⟨m, hm, ?_⟩
    rw [t.toExpr_mapLine, he]
    exact L.pure ⟨hd, hs⟩
  · intro t ht
    refine ⟨.any (.symbol .leftParen), eq_of_beq ht, L.bind (by decide) (L.nested h) fun e => ?_⟩
    refine L.take (fun k hk => Token.Kind.isInner_of_beq hk rfl) (fun t ht => ?_) (L.fail (by decide))
    refine ⟨.any (.symbol .rightParen), eq_of_beq ht, L.pure ?_⟩
    rintro _ ⟨hlt, hd, rfl⟩
    exact ⟨.group hlt hd, rfl⟩

lemma unary {deeper deeper' primary primary' : Parser Expr}
    (hd : L.goesBelow n → L.expr .unary (n + 1) deeper deeper')
    (hp : L.expr .primary n primary primary') :
    L.expr .unary n (Parser.unary deeper primary) (Parser.unary deeper' primary') := by
  rw [unary_eq, unary_eq]
  refine L.take (fun k hk => Token.Kind.isInner_of hk (by decide)) ?_ (L.mono hp ?_)
  · intro op hop
    refine ⟨.own op, rfl, L.bind (by decide) (L.nested hd) fun e => L.pure ?_⟩
    rintro _ ⟨hlt, hd, rfl⟩
    exact ⟨.unary hop hlt hd, by simp [Expr.spelling]⟩
  · exact fun ms e he => ⟨.primary he.1, he.2⟩

lemma chain (tier : Tier) {operand operand' : Parser Expr} {more more' : Expr → Parser Expr}
    (ho : L.goesBelow n → L.expr tier.operand (n + 1) operand operand')
    (hm : L.goesBelow n → L.chained tier (n + 1) more more') :
    L.chained tier n (Parser.chain tier operand more) (Parser.chain tier operand' more') := by
  intro left
  rw [chain_eq, chain_eq]
  refine L.take (fun k hk => Token.Kind.isInner_of hk (by cases tier <;> decide)) ?_ (L.opened (L.pure ?_))
  · intro op hop
    refine ⟨.own op, rfl, L.enter fun hn => ?_⟩
    refine L.bind (by decide) (ho hn) fun right => L.mono (hm hn (.binary left op right)) ?_
    rintro ns e he _ ⟨hright, rfl⟩ hlt base links rfl hleft
    -- The operator is one more link, and what follows it goes on from the longer chain.
    have hlink : (Expr.binary left op right).Derives (.chain tier (links + 1)) base := .link hleft hop hlt hright
    obtain ⟨hk, hs⟩ := he base (links + 1) rfl hlink
    exact ⟨hk, by simp only [hs, Expr.spelling, List.append_assoc, List.cons_append]⟩
  · exact fun base links _ hleft => ⟨⟨links, hleft⟩, (List.append_nil _).symm⟩

lemma level (tier : Tier) {operand operand' : Parser Expr} {chain chain' : Expr → Parser Expr}
    (ho : L.expr tier.operand n operand operand') (hc : L.chained tier n chain chain') :
    L.expr (.level tier) n (Parser.level operand chain) (Parser.level operand' chain') := by
  rw [level_eq, level_eq]
  refine L.backUp (L.bind (by decide) ho fun first => L.mono (hc first) ?_)
  rintro ns e he _ ⟨hfirst, rfl⟩
  obtain ⟨⟨k, hk⟩, hs⟩ := he n 0 rfl (.first tier hfirst)
  exact ⟨.level hk, hs⟩

lemma assignment {deeper deeper' equality equality' : Parser Expr}
    (hd : L.goesBelow n → L.expr .assignment (n + 1) deeper deeper')
    (he : L.expr (.level .equality) n equality equality') :
    L.expr .assignment n (Parser.assignment deeper equality) (Parser.assignment deeper' equality') := by
  rw [assignment_eq, assignment_eq]
  refine L.bind (by decide) he fun left => ?_
  have hleft : ∀ ms, left.Spelled (.level .equality) n ms → left.Spelled .assignment n (ms ++ []) := by
    rintro _ ⟨hd, rfl⟩
    exact ⟨.equality hd, (List.append_nil _).symm⟩
  cases left with
  | «variable» name =>
    refine L.take (fun k hk => Token.Kind.isInner_of_beq hk rfl) (fun equals hequals => ?_) (L.pure hleft)
    refine ⟨.any (.symbol .equal), eq_of_beq hequals, L.bind (by decide) (L.nested hd) fun value => L.pure ?_⟩
    rintro _ ⟨hlt, hvalue, rfl⟩ _ ⟨hname, rfl⟩
    exact ⟨.assign hname.isIdentifier hlt hvalue, by simp [Expr.spelling]⟩
  | _ => exact L.badTarget hd hleft

lemma varDeclaration {expression expression' : Parser Expr} (he : L.expr .assignment n expression expression') :
    L.judge .closed n (Stmt.mapLine L.lines) (fun ms s => s.Spelled n (.any (.keyword .varKw) :: ms))
      (Parser.varDeclaration expression) (Parser.varDeclaration expression') := by
  rw [varDeclaration_eq, varDeclaration_eq]
  refine L.take (fun k hk => Token.Kind.isInner_of hk (by decide)) (fun name hname => ?_) (L.fail (by decide))
  refine ⟨.own name, rfl, L.take (fun k hk => Token.Kind.isInner_of_beq hk rfl) (fun equals hequals => ?_) ?_⟩
  · refine ⟨.any (.symbol .equal), eq_of_beq hequals, L.bind (by decide) he fun e => ?_⟩
    refine L.semicolon (a := Stmt.var name (some e)) (by decide) ?_
    rintro _ ⟨hd, rfl⟩
    exact ⟨.var hname (by simpa using hd), by simp [Stmt.spelling, Stmt.initSpelling]⟩
  · exact L.semicolon (a := Stmt.var name none) (by decide)
      ⟨.var hname (by simp), by simp [Stmt.spelling, Stmt.initSpelling]⟩

lemma statement {expression expression' : Parser Expr} {block block' : Parser (List Stmt)}
    (he : L.expr .assignment n expression expression') (hb : L.goesBelow n → L.block (n + 1) block block') :
    L.stmt .statement n (Parser.statement expression block) (Parser.statement expression' block') := by
  rw [statement_eq, statement_eq]
  refine L.take (fun k hk => Token.Kind.isInner_of_beq hk rfl) (fun print hprint => ?_) (L.braced hb ?_)
  · refine ⟨.any (.keyword .printKw), eq_of_beq hprint, L.bind (by decide) he fun e => ?_⟩
    refine L.semicolon (a := Stmt.print e) (by decide) ?_
    rintro _ ⟨hd, rfl⟩
    exact ⟨.print hd, by simp [Stmt.spelling]⟩
  · refine L.bind (by decide) he fun e => L.semicolon (a := Stmt.expression e) (by decide) ?_
    rintro _ ⟨hd, rfl⟩
    exact ⟨.expression hd, by simp [Stmt.spelling]⟩

lemma declaration {expression expression' : Parser Expr} {statement statement' : Parser Stmt}
    (he : L.expr .assignment n expression expression') (hs : L.stmt .statement n statement statement') :
    L.stmt .statement n (Parser.declaration expression statement) (Parser.declaration expression' statement') := by
  rw [declaration_eq, declaration_eq]
  refine L.take (fun k hk => Token.Kind.isInner_of_beq hk rfl) (fun t ht => ?_) hs
  exact ⟨.any (.keyword .varKw), eq_of_beq ht, varDeclaration he⟩

variable (L) in
structure Expressions (n : ℕ) (l l' : Layer) : Prop where
  expression : L.expr .assignment n l.expression l'.expression
  level : ∀ tier, L.expr (.level tier) n (l.level tier) (l'.level tier)
  chain : ∀ tier, L.chained tier n (l.chain tier) (l'.chain tier)
  unary : L.expr .unary n l.unary l'.unary
  primary : L.expr .primary n l.primary l'.primary

namespace Expressions

variable {l l' : Layer}

lemma operand (h : L.Expressions n l l') (tier : Tier) :
    L.expr tier.operand n (l.operand tier) (l'.operand tier) := by
  cases tier with
  | factor => exact h.unary
  | _ => exact h.level _

lemma climb (h : L.goesBelow n → L.Expressions (n + 1) l l') :
    L.Expressions n (Layer.climb l) (Layer.climb l') := by
  have hprimary := Logic.primary fun hn => (h hn).expression
  have hunary := Logic.unary (fun hn => (h hn).unary) hprimary
  have hchain (tier : Tier) := Logic.chain tier (fun hn => (h hn).operand tier) fun hn => (h hn).chain tier
  have hfactor := Logic.level .factor hunary (hchain .factor)
  have hterm := Logic.level .term hfactor (hchain .term)
  have hcomparison := Logic.level .comparison hterm (hchain .comparison)
  have hequality := Logic.level .equality hcomparison (hchain .equality)
  refine ⟨Logic.assignment (fun hn => (h hn).expression) hequality, ?_, hchain, hunary, hprimary⟩
  rintro (_ | _ | _ | _)
  exacts [hequality, hcomparison, hterm, hfactor]

variable (L n) in
lemma refuse : L.Expressions n Layer.refuse Layer.refuse where
  expression := L.fail (by decide)
  level _ := L.fail (by decide)
  chain _ _ := L.fail (by decide)
  unary := L.fail (by decide)
  primary := L.fail (by decide)

variable (L) in
lemma above (k n : ℕ) : L.Expressions n (Layer.above k) (Layer.above k) := by
  induction k generalizing n with
  | zero => exact .climb fun _ => refuse L (n + 1)
  | succ k ih => exact .climb fun _ => ih (n + 1)

end Expressions

variable (L) in
structure Layers (n : ℕ) (l l' : Layer) : Prop extends L.Expressions n l l' where
  statement : L.stmt .statement n l.statement l'.statement
  declaration : L.stmt .statement n l.declaration l'.declaration
  block : L.block n l.block l'.block

namespace Layers

variable {l l' : Layer}

lemma climb (h : L.goesBelow n → L.Layers (n + 1) l l')
    (hblock : L.stmt .statement n (Layer.climb l).declaration (Layer.climb l').declaration →
      L.block n (Layer.climb l).block (Layer.climb l').block) : L.Layers n (Layer.climb l) (Layer.climb l') := by
  have hexpressions := Expressions.climb fun hn => (h hn).toExpressions
  have hstatement := Logic.statement hexpressions.expression fun hn => (h hn).block
  have hdeclaration := Logic.declaration hexpressions.expression hstatement
  exact ⟨hexpressions, hstatement, hdeclaration, hblock hdeclaration⟩

theorem above (hrefuse : ∀ n, L.block n (failHere .tooMuchNesting) (failHere .tooMuchNesting))
    (hblock : ∀ k n, L.stmt .statement n (Layer.above k).declaration (Layer.above k).declaration →
      L.block n (Layer.above k).block (Layer.above k).block) (k n : ℕ) :
    L.Layers n (Layer.above k) (Layer.above k) := by
  induction k generalizing n with
  | zero =>
    have hnone : L.Layers (n + 1) Layer.refuse Layer.refuse :=
      ⟨.refuse L (n + 1), L.fail (by decide), L.fail (by decide), hrefuse (n + 1)⟩
    exact .climb (fun _ => hnone) (hblock 0 n)
  | succ k ih => exact .climb (fun _ => ih (n + 1)) (hblock (k + 1) n)

end Layers

end Logic

end Lox
