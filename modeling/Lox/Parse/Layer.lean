import Lox.Parse.Cursor
import Lox.Stmt

/-! The parsing functions. What parses at one nesting depth is built from what parses one level deeper, so the whole
family is a tower of layers, one for each level that is left. -/

namespace Lox

inductive Tier where
  | equality | comparison | term | factor
deriving DecidableEq, Repr

namespace Tier

def hasOperator : Tier → Symbol → Bool
  | .equality, s => s == .bangEqual || s == .equalEqual
  | .comparison, s => s == .greater || s == .greaterEqual || s == .less || s == .lessEqual
  | .term, s => s == .minus || s == .plus
  | .factor, s => s == .slash || s == .star

def isOperator (tier : Tier) : Token.Kind → Bool
  | .symbol s => tier.hasOperator s
  | _ => false

end Tier

def isUnaryOperator (k : Token.Kind) : Bool :=
  k == .symbol .bang || k == .symbol .minus

namespace Parser

def primary (inside : Parser Expr) : Parser Expr := do
  let t ← peek
  if t.kind.isAtom then
    let t ← advance
    ofExcept t.toExpr
  else if t.kind == .symbol .leftParen then
    let _ ← advance
    let e ← nested inside
    expectSymbol .rightParen .expectRightParen
    return .group e
  else failHere .expectExpression

def unary (deeper : Parser Expr) (primary : Parser Expr) : Parser Expr := do
  match ← nextIf isUnaryOperator with
  | some op => return .unary op (← nested deeper)
  | none => primary

/-- The operators of a tier that follow `left`. Each makes the tree one level deeper, so its right operand and the
operators behind it are read one level deeper. -/
def chain (tier : Tier) (operand : Parser Expr) (more : Expr → Parser Expr) (left : Expr) : Parser Expr := do
  match ← nextIf tier.isOperator with
  | none => return left
  | some op =>
    enter
    let right ← operand
    more (.binary left op right)

def level (operand : Parser Expr) (chain : Expr → Parser Expr) : Parser Expr := do
  let base ← depth
  let first ← operand
  let e ← chain first
  setDepth base
  return e

def assignment (deeper : Parser Expr) (equality : Parser Expr) : Parser Expr := do
  let left ← equality
  match ← nextIf (· == .symbol .equal) with
  | none => return left
  | some equals =>
    let value ← nested deeper
    match left with
    | .variable name => return .assign name value
    | left =>
      record (.ofToken .invalidAssignmentTarget equals)
      return left

def varDeclaration (expression : Parser Expr) : Parser Stmt := do
  let name ← expect Token.Kind.isIdentifier .expectVariableName
  let init ← match ← nextIf (· == .symbol .equal) with
    | some _ => some <$> expression
    | none => pure none
  expectSymbol .semicolon .expectSemicolonAfterVarDeclaration
  return .var name init

def statement (expression : Parser Expr) (block : Parser (List Stmt)) : Parser Stmt := do
  match ← nextIf (· == .keyword .printKw) with
  | some _ =>
    let e ← expression
    expectSymbol .semicolon .expectSemicolonAfterValue
    return .print e
  | none =>
    let t ← peek
    if t.kind == .symbol .leftBrace then return .block (← nested block)
    else
      let e ← expression
      expectSymbol .semicolon .expectSemicolonAfterExpression
      return .expression e

def declaration (expression : Parser Expr) (statement : Parser Stmt) : Parser Stmt := do
  match ← nextIf (· == .keyword .varKw) with
  | some _ => varDeclaration expression
  | none => statement

def recovering (inBlock : Bool) (declaration : Parser Stmt) : Parser (Option Stmt) := fun c =>
  match declaration c with
  | .ok s c => .ok (some s) c
  | .error (.fault f) d => (do record f; setDepth c.depth; synchronize inBlock; return none) d
  | .error (.internal f) d => .error (.internal f) d

def declarationsWithin (ends : Token.Kind → Bool) (declaration : Parser (Option Stmt)) (done : Array Stmt) :
    Nat → Parser (Array Stmt)
  | 0 => throw (.internal .missingEnd)
  | n + 1 => do
    let t ← peek
    if ends t.kind then return done
    else
      match ← declaration with
      | some s => declarationsWithin ends declaration (done.push s) n
      | none => declarationsWithin ends declaration done n

/-- The declarations up to a token at which the list ends. Each takes a token, so they are no more than the tokens
left, and where no token is left there is no end mark either. -/
def declarations (ends : Token.Kind → Bool) (declaration : Parser (Option Stmt)) : Parser (List Stmt) := fun c =>
  (Array.toList <$> declarationsWithin ends declaration #[] c.rest.length) c

def block (declaration : Parser Stmt) : Parser (List Stmt) := do
  let _ ← advance
  let body ← declarations (fun k => k == .symbol .rightBrace || k == .eof) (recovering true declaration)
  expectSymbol .rightBrace .expectRightBrace
  return body

end Parser

structure Layer where
  expression : Parser Expr
  level : Tier → Parser Expr
  chain : Tier → Expr → Parser Expr
  unary : Parser Expr
  primary : Parser Expr
  declaration : Parser Stmt
  statement : Parser Stmt
  block : Parser (List Stmt)

namespace Layer

def operand (l : Layer) : Tier → Parser Expr
  | .equality => l.level .comparison
  | .comparison => l.level .term
  | .term => l.level .factor
  | .factor => l.unary

def climb (below : Layer) : Layer :=
  let primary := Parser.primary below.expression
  let unary := Parser.unary below.unary primary
  let chain (tier : Tier) := Parser.chain tier (below.operand tier) (below.chain tier)
  let factor := Parser.level unary (chain .factor)
  let term := Parser.level factor (chain .term)
  let comparison := Parser.level term (chain .comparison)
  let equality := Parser.level comparison (chain .equality)
  let expression := Parser.assignment below.expression equality
  let statement := Parser.statement expression below.block
  let declaration := Parser.declaration expression statement
  { expression
    level := fun
      | .equality => equality
      | .comparison => comparison
      | .term => term
      | .factor => factor
    chain
    unary
    primary
    declaration
    statement
    block := Parser.block declaration }

def refuse : Layer where
  expression := Parser.failHere .tooMuchNesting
  level _ := Parser.failHere .tooMuchNesting
  chain _ _ := Parser.failHere .tooMuchNesting
  unary := Parser.failHere .tooMuchNesting
  primary := Parser.failHere .tooMuchNesting
  declaration := Parser.failHere .tooMuchNesting
  statement := Parser.failHere .tooMuchNesting
  block := Parser.failHere .tooMuchNesting

/-- The parsing functions that can nest `n` levels. -/
def above : Nat → Layer
  | 0 => climb refuse
  | n + 1 => climb (above n)

def run {α : Type} (p : Layer → Parser α) : Parser α := fun c =>
  p (above (maxNesting - c.depth)) c

end Layer

end Lox
