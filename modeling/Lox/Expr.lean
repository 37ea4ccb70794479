import Lox.Token
import Lox.Value

namespace Lox

inductive Expr where
  | literal (value : Value)
  | variable (name : Token)
  | assign (name : Token) (value : Expr)
  | unary (op : Token) (operand : Expr)
  | binary (left : Expr) (op : Token) (right : Expr)
  | group (inner : Expr)
deriving DecidableEq, Repr

def Value.literalText : Value → String
  | .string s => "\"" ++ s ++ "\""
  | v => v.render

def Expr.render : Expr → String
  | .literal v => v.literalText
  | .variable name => name.lexeme
  | .assign name value => "(= " ++ name.lexeme ++ " " ++ value.render ++ ")"
  | .unary op operand => "(" ++ op.lexeme ++ " " ++ operand.render ++ ")"
  | .binary left op right => "(" ++ op.lexeme ++ " " ++ left.render ++ " " ++ right.render ++ ")"
  | .group inner => "(group " ++ inner.render ++ ")"

def Token.Kind.isAtom : Token.Kind → Bool
  | .number _ | .string _ | .keyword .trueKw | .keyword .falseKw | .keyword .nilKw | .identifier _ => true
  | _ => false

def Token.toExpr? (t : Token) : Option Expr :=
  match t.kind with
  | .number x => some (.literal (.number x))
  | .string s => some (.literal (.string s))
  | .keyword .trueKw => some (.literal (.bool true))
  | .keyword .falseKw => some (.literal (.bool false))
  | .keyword .nilKw => some (.literal .nil)
  | .identifier _ => some (.variable t)
  | _ => none

end Lox
