import Lox.Decimal.Style
import Lox.Text.Quoted
import Lox.Token

namespace Lox

def Symbol.label : Symbol → String
  | .leftParen => "LeftParen"
  | .rightParen => "RightParen"
  | .leftBrace => "LeftBrace"
  | .rightBrace => "RightBrace"
  | .comma => "Comma"
  | .dot => "Dot"
  | .minus => "Minus"
  | .plus => "Plus"
  | .semicolon => "Semicolon"
  | .slash => "Slash"
  | .star => "Star"
  | .bang => "Bang"
  | .bangEqual => "BangEqual"
  | .equal => "Equal"
  | .equalEqual => "EqualEqual"
  | .greater => "Greater"
  | .greaterEqual => "GreaterEqual"
  | .less => "Less"
  | .lessEqual => "LessEqual"

def Keyword.label : Keyword → String
  | .andKw => "And"
  | .classKw => "Class"
  | .elseKw => "Else"
  | .falseKw => "False"
  | .forKw => "For"
  | .funKw => "Fun"
  | .ifKw => "If"
  | .nilKw => "Nil"
  | .orKw => "Or"
  | .printKw => "Print"
  | .returnKw => "Return"
  | .superKw => "Super"
  | .thisKw => "This"
  | .trueKw => "True"
  | .varKw => "Var"
  | .whileKw => "While"

namespace Token

def Kind.label : Kind → String
  | .newline => "NewLine"
  | .blank => "EmptyChar"
  | .comment => "Comment"
  | .symbol s => s.label
  | .keyword k => k.label
  | .identifier _ => "Identifier"
  | .string _ => "StringLiteral"
  | .number _ => "NumberLiteral"
  | .eof => "Eof"

def Kind.plain : List Kind :=
  [.newline, .blank, .comment, .eof] ++ Symbol.all.map .symbol ++ Keyword.all.map .keyword

def Kind.ofLabel? (label : String) : Option Kind :=
  Kind.plain.find? (·.label == label)

def Kind.shown (k : Kind) : String :=
  match k with
  | .identifier name => k.label ++ "(" ++ Text.quoted name ++ ")"
  | .string text => k.label ++ "(" ++ Text.quoted text ++ ")"
  | .number value => k.label ++ "(" ++ Decimal.Style.marked.text value ++ ")"
  | k => k.label

def shown (t : Token) : String :=
  t.kind.shown ++ " '" ++ t.lexeme ++ "' (line " ++ t.line.repr ++ ")"

end Token

end Lox
