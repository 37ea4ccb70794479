import Lox.Failure
import Lox.Parse.Layer

namespace Lox

structure Parsed where
  statements : List Stmt
  faults : List SyntaxFault
deriving DecidableEq, Repr

def Stop.toFailure : Stop → Failure
  | .fault _ => .syntactic 1
  | .internal f => .internal f

def Parsed.ofTokens (tokens : List Token) : Except Failure Parsed :=
  let declaration := Parser.recovering false (Layer.above maxNesting).declaration
  match Parser.declarations (· == .eof) declaration ⟨tokens, 0, []⟩ with
  | .ok statements c => .ok ⟨statements, c.faults.reverse⟩
  | .error stop _ => .error stop.toFailure

def parse (tokens : List Token) : Option Parsed :=
  (Parsed.ofTokens tokens).toOption

end Lox
