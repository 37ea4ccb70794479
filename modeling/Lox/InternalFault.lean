import Lox.Expr
import Lox.Token.Shown

/-! Faults that no Lox program causes by itself: files that cannot be read, sinks that refuse bytes, and texts, token
lists or trees that no source gives. A fault can be told within a context, and that within another. -/

namespace Lox

inductive ReadFault where
  | notFound
  | isDirectory
  | notUtf8
  | other (message : String)
deriving DecidableEq, Repr

def ReadFault.message : ReadFault → String
  | .notFound => "No such file or directory (os error 2)"
  | .isDirectory => "Is a directory (os error 21)"
  | .notUtf8 => "stream did not contain valid UTF-8"
  | .other message => message

structure InternalFault.Context where
  text : String
deriving DecidableEq, Repr

namespace InternalFault.Context

def numeral (text : String) : Context :=
  ⟨"Failed to parse number literal `" ++ text ++ "`"⟩

def writing : Context :=
  ⟨"Failed write print output"⟩

def flushing : Context :=
  ⟨"Failed flush output"⟩

def opening (path : String) : Context :=
  ⟨"Failed open source file " ++ path⟩

end InternalFault.Context

inductive InternalFault where
  | unexpectedEnd
  | invalidNumeral
  | missingEnd
  | notAnExpression (t : Token)
  | invalidUnary (op : Token)
  | invalidBinary (op : Token)
  | refused (reason : String)
  | unreadable (cause : ReadFault)
  | within (context : InternalFault.Context) (inner : InternalFault)
deriving DecidableEq, Repr

namespace InternalFault

def message : InternalFault → String
  | .unexpectedEnd => "Unexpected EOF"
  | .invalidNumeral => "invalid float literal"
  | .missingEnd => "Token stream has no end-of-input token"
  | .notAnExpression t => "Cannot convert token " ++ t.shown ++ " to an expression"
  | .invalidUnary op => "Invalid unary operator " ++ op.shown
  | .invalidBinary op => "Invalid binary operator " ++ op.shown
  | .refused reason => reason
  | .unreadable cause => cause.message
  | .within context _ => context.text

def chain : InternalFault → String
  | .within context inner => context.text ++ ": " ++ inner.chain
  | fault => fault.message

end InternalFault

def Token.toExpr (t : Token) : Except InternalFault Expr :=
  match t.toExpr? with
  | some e => .ok e
  | none => .error (.notAnExpression t)

end Lox
