import Lox.Expr

namespace Lox

inductive Stmt where
  | block (body : List Stmt)
  | expression (e : Expr)
  | print (e : Expr)
  | var (name : Token) (init : Option Expr)
deriving Repr

namespace Stmt

mutual

def decEq : (s t : Stmt) → Decidable (s = t)
  | .block a, .block b =>
    match decEqList a b with
    | isTrue h => isTrue (by rw [h])
    | isFalse h => isFalse (by simpa using h)
  | .expression a, .expression b => if h : a = b then isTrue (by rw [h]) else isFalse (by simpa using h)
  | .print a, .print b => if h : a = b then isTrue (by rw [h]) else isFalse (by simpa using h)
  | .var a i, .var b j => if h : a = b ∧ i = j then isTrue (by rw [h.1, h.2]) else isFalse (by simpa using h)
  | .block _, .expression _ | .block _, .print _ | .block _, .var _ _ => isFalse (by simp)
  | .expression _, .block _ | .expression _, .print _ | .expression _, .var _ _ => isFalse (by simp)
  | .print _, .block _ | .print _, .expression _ | .print _, .var _ _ => isFalse (by simp)
  | .var _ _, .block _ | .var _ _, .expression _ | .var _ _, .print _ => isFalse (by simp)

def decEqList : (s t : List Stmt) → Decidable (s = t)
  | [], [] => isTrue rfl
  | [], _ :: _ | _ :: _, [] => isFalse (by simp)
  | a :: s, b :: t =>
    match decEq a b with
    | isFalse h => isFalse (by simp [h])
    | isTrue h =>
      match decEqList s t with
      | isTrue h' => isTrue (by rw [h, h'])
      | isFalse h' => isFalse (by simp [h'])

end

instance : DecidableEq Stmt :=
  decEq

mutual

def render : Stmt → String
  | .block body => "(block" ++ renderEach body ++ ")"
  | .expression e => "(; " ++ e.render ++ ")"
  | .print e => "(print " ++ e.render ++ ")"
  | .var name (some e) => "(var " ++ name.lexeme ++ " " ++ e.render ++ ")"
  | .var name none => "(var " ++ name.lexeme ++ ")"

def renderEach : List Stmt → String
  | [] => ""
  | s :: rest => " " ++ render s ++ renderEach rest

end

end Stmt

end Lox
