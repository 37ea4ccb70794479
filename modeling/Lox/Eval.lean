import Lox.Failure
import Lox.Scopes

namespace Lox

inductive Trouble where
  | runtime (fault : RuntimeFault)
  | internal (fault : InternalFault)
deriving DecidableEq, Repr

def Trouble.toFailure : Trouble → Failure
  | .runtime fault => .runtime fault
  | .internal fault => .internal fault

def applyUnary (op : Token) (v : Value) : Except Trouble Value :=
  match op.kind with
  | .symbol .minus =>
    match v.number? with
    | some x => .ok (.number (-x))
    | none => .error (.runtime (.ofToken .operandMustBeNumber op))
  | .symbol .bang => .ok (.bool !v.isTruthy)
  | _ => .error (.internal (.invalidUnary op))

def applyNumeric (op : Token) (x y : Float) : Except Trouble Value :=
  match op.kind with
  | .symbol .minus => .ok (.number (x - y))
  | .symbol .star => .ok (.number (x * y))
  | .symbol .slash => .ok (.number (x / y))
  | .symbol .greater => .ok (.bool (decide (x > y)))
  | .symbol .greaterEqual => .ok (.bool (decide (x ≥ y)))
  | .symbol .less => .ok (.bool (decide (x < y)))
  | .symbol .lessEqual => .ok (.bool (decide (x ≤ y)))
  | _ => .error (.internal (.invalidBinary op))

def applyBinary (op : Token) (left right : Value) : Except Trouble Value :=
  match op.kind with
  | .symbol .plus =>
    match left.plus? right with
    | some v => .ok v
    | none => .error (.runtime (.ofToken .operandsMustBeNumbersOrStrings op))
  | .symbol .equalEqual => .ok (.bool (left.equals right))
  | .symbol .bangEqual => .ok (.bool !(left.equals right))
  | _ =>
    match left.number?, right.number? with
    | some x, some y => applyNumeric op x y
    | _, _ => .error (.runtime (.ofToken .operandsMustBeNumbers op))

abbrev Eval (α : Type) : Type :=
  EStateM Trouble Scopes α

namespace Eval

def read (name : Token) : Eval Value := fun s =>
  match s.get? name.lexeme with
  | some v => .ok v s
  | none => .error (.runtime (.undefined name)) s

def assign (name : Token) (v : Value) : Eval Unit := fun s =>
  match s.assign? name.lexeme v with
  | some s => .ok () s
  | none => .error (.runtime (.undefined name)) s

def ofExcept {α : Type} (r : Except Trouble α) : Eval α := fun s =>
  match r with
  | .ok a => .ok a s
  | .error e => .error e s

end Eval

def Expr.eval : Expr → Eval Value
  | .literal v => return v
  | .group inner => inner.eval
  | .variable name => Eval.read name
  | .assign name value => do
    let v ← value.eval
    Eval.assign name v
    return v
  | .unary op operand => do
    let v ← operand.eval
    Eval.ofExcept (applyUnary op v)
  | .binary left op right => do
    let a ← left.eval
    let b ← right.eval
    Eval.ofExcept (applyBinary op a b)

end Lox
