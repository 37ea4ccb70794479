import Lox.Decimal.Style

namespace Lox

inductive Value where
  | nil
  | bool (b : Bool)
  | number (x : Float)
  | string (s : String)
deriving DecidableEq, Repr

namespace Value

def render : Value → String
  | .nil => "nil"
  | .bool true => "true"
  | .bool false => "false"
  | .number x => Decimal.Style.plain.text x
  | .string s => s

def isTruthy : Value → Bool
  | .nil | .bool false => false
  | _ => true

def equals : Value → Value → Bool
  | .nil, .nil => true
  | .bool a, .bool b => a == b
  | .number x, .number y => x == y
  | .string s, .string t => s == t
  | _, _ => false

def number? : Value → Option Float
  | .number x => some x
  | _ => none

def plus? : Value → Value → Option Value
  | .number x, .number y => some (.number (x + y))
  | .string s, .string t => some (.string (s ++ t))
  | _, _ => none

end Value

end Lox
