import Lox.Token

namespace Lox

inductive SyntaxFault.Kind where
  | expectExpression
  | expectRightParen
  | expectSemicolonAfterValue
  | expectSemicolonAfterExpression
  | expectVariableName
  | expectSemicolonAfterVarDeclaration
  | expectRightBrace
  | invalidAssignmentTarget
  | tooMuchNesting
deriving DecidableEq, Repr

inductive SyntaxFault.Place where
  | atEnd
  | atLexeme (lexeme : String)
deriving DecidableEq, Repr

structure SyntaxFault where
  kind : SyntaxFault.Kind
  line : Nat
  place : SyntaxFault.Place
deriving DecidableEq, Repr

namespace SyntaxFault

def ofToken (kind : Kind) (t : Token) : SyntaxFault :=
  ⟨kind, t.line, if t.isEof then .atEnd else .atLexeme t.lexeme⟩

def Kind.message : Kind → String
  | .expectExpression => "Expect expression."
  | .expectRightParen => "Expect ')' after expression."
  | .expectSemicolonAfterValue => "Expect ';' after value."
  | .expectSemicolonAfterExpression => "Expect ';' after expression."
  | .expectVariableName => "Expect variable name."
  | .expectSemicolonAfterVarDeclaration => "Expect ';' after variable declaration."
  | .expectRightBrace => "Expect '\x7d' after block."
  | .invalidAssignmentTarget => "Invalid assignment target."
  | .tooMuchNesting => "Too much nesting."

def Place.text : Place → String
  | .atEnd => " at end"
  | .atLexeme lexeme => " at '" ++ lexeme ++ "'"

def message (f : SyntaxFault) : String :=
  "Error" ++ f.place.text ++ ": " ++ f.kind.message

end SyntaxFault

end Lox
