import Lox.Token

namespace Lox

inductive RuntimeFault.Kind where
  | operandMustBeNumber
  | operandsMustBeNumbers
  | operandsMustBeNumbersOrStrings
  | undefinedVariable (name : String)
deriving DecidableEq, Repr

structure RuntimeFault where
  kind : RuntimeFault.Kind
  line : Nat
  lexeme : String
deriving DecidableEq, Repr

namespace RuntimeFault

def ofToken (kind : Kind) (t : Token) : RuntimeFault :=
  ⟨kind, t.line, t.lexeme⟩

def undefined (t : Token) : RuntimeFault :=
  ofToken (.undefinedVariable t.lexeme) t

def message (f : RuntimeFault) : String :=
  match f.kind with
  | .operandMustBeNumber => "Operand must be a number."
  | .operandsMustBeNumbers => "Operands must be numbers."
  | .operandsMustBeNumbersOrStrings => "Operands must be two numbers or two strings."
  | .undefinedVariable name => "Undefined variable '" ++ name ++ "'."

end RuntimeFault

end Lox
