import Lox.Parse.Fault
import Lox.Scan
import Lox.Stmt

namespace Lox

inductive Event where
  | scanning
  | lexicalFault (fault : LexicalFault)
  | scanned (tokens faults : Nat)
  | parsing
  | syntaxFault (fault : SyntaxFault)
  | parsed (statements faults : Nat)
  | interpreting (statements : Nat)
  | executing (s : Stmt)
  | enteredScope (depth : Nat)
  | leftScope (depth : Nat)
deriving DecidableEq, Repr

namespace Event

def isDetail : Event → Bool
  | .lexicalFault _ | .syntaxFault _ | .executing _ | .enteredScope _ | .leftScope _ => true
  | _ => false

def text : Event → String
  | .scanning => "span scan_tokens"
  | .lexicalFault f => "TRACE scan_tokens: lexical fault: " ++ f.message ++ " line=" ++ f.line.repr
  | .scanned tokens faults =>
    "DEBUG scan_tokens: scanned source tokens=" ++ tokens.repr ++ " errors=" ++ faults.repr
  | .parsing => "span parse"
  | .syntaxFault f => "TRACE parse: syntax fault: " ++ f.message ++ " line=" ++ f.line.repr
  | .parsed statements faults =>
    "DEBUG parse: parsed tokens statements=" ++ statements.repr ++ " errors=" ++ faults.repr
  | .interpreting statements => "span interpret statements=" ++ statements.repr
  | .executing s => "TRACE interpret: execute statement=" ++ s.render
  | .enteredScope depth => "TRACE interpret: entered scope depth=" ++ depth.repr
  | .leftScope depth => "TRACE interpret: left scope depth=" ++ depth.repr

end Event

def journalLines (detailed : Bool) (journal : List Event) : List String :=
  (journal.filter fun e => detailed || !e.isDetail).map Event.text

end Lox
