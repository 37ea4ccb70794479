import Lox.InternalFault
import Lox.RuntimeFault

namespace Lox

inductive Failure where
  | internal (fault : InternalFault)
  | lexical (count : Nat)
  | syntactic (count : Nat)
  | runtime (fault : RuntimeFault)
deriving DecidableEq, Repr

namespace Failure

def message : Failure → String
  | .internal fault => "CompilerInternalError: " ++ fault.message
  | .lexical count => "Generated " ++ count.repr ++ " scanner errors"
  | .syntactic count => "Generated " ++ count.repr ++ " parser errors"
  | .runtime fault => "Runtime error: " ++ fault.message

def exitCode : Failure → UInt32
  | .lexical _ | .syntactic _ => 65
  | .runtime _ | .internal _ => 70

end Failure

end Lox
