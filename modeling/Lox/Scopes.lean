import Lox.Value

/-! Variables in nested scopes. Every scope is a frame that knows the number of the frame around it; names are
looked up from the current frame outward. -/

namespace Lox

structure Frame where
  bindings : List (String × Value)
  enclosing : Option Nat
deriving DecidableEq, Repr

namespace Frame

def get? (f : Frame) (name : String) : Option Value :=
  f.bindings.lookup name

def bind (name : String) (v : Value) : List (String × Value) → List (String × Value)
  | [] => [(name, v)]
  | (n, w) :: rest => if n = name then (name, v) :: rest else (n, w) :: bind name v rest

def put (f : Frame) (name : String) (v : Value) : Frame :=
  { f with bindings := bind name v f.bindings }

theorem lookup_bind (name : String) (v : Value) (bs : List (String × Value)) (m : String) :
    (bind name v bs).lookup m = if m = name then some v else bs.lookup m := by
  induction bs with
  | nil => by_cases h : m = name <;> simp [bind, List.lookup_cons, h, beq_false_of_ne]
  | cons b rest ih =>
    obtain ⟨n, w⟩ := b
    by_cases hn : n = name
    · subst hn
      by_cases h : m = n <;> simp [bind, List.lookup_cons, h, beq_false_of_ne]
    · by_cases h : m = n
      · subst h
        simp [bind, hn]
      · simpa [bind, hn, List.lookup_cons, h, beq_false_of_ne] using ih

@[simp] theorem get?_put (f : Frame) (name : String) (v : Value) (m : String) :
    (f.put name v).get? m = if m = name then some v else f.get? m :=
  lookup_bind name v f.bindings m

@[simp] theorem enclosing_put (f : Frame) (name : String) (v : Value) : (f.put name v).enclosing = f.enclosing := rfl

end Frame

structure Scopes where
  frames : Array Frame
  current : Nat
deriving DecidableEq, Repr

namespace Scopes

def global : Scopes :=
  ⟨#[⟨[], none⟩], 0⟩

def depth (s : Scopes) : Nat :=
  s.frames.size

def push (s : Scopes) : Scopes :=
  ⟨s.frames.push ⟨[], some s.current⟩, s.frames.size⟩

def popTo (s : Scopes) (previous : Nat) : Scopes :=
  ⟨s.frames.take (previous + 1), previous⟩

def define (s : Scopes) (name : String) (v : Value) : Scopes :=
  { s with frames := s.frames.modify s.current (·.put name v) }

def chainFrom (s : Scopes) : Nat → Nat → List Nat
  | 0, _ => []
  | n + 1, i =>
    match s.frames[i]? with
    | none => []
    | some f => i :: (f.enclosing.map (s.chainFrom n)).getD []

/-- The numbers of the frames from the current one outward. No frame can occur twice. -/
def chain (s : Scopes) : List Nat :=
  s.chainFrom s.frames.size s.current

def getIn? (s : Scopes) (name : String) (i : Nat) : Option Value :=
  s.frames[i]?.bind (·.get? name)

def get? (s : Scopes) (name : String) : Option Value :=
  s.chain.findSome? (s.getIn? name)

def assign? (s : Scopes) (name : String) (v : Value) : Option Scopes :=
  (s.chain.find? fun i => (s.getIn? name i).isSome).map fun i =>
    { s with frames := s.frames.modify i (·.put name v) }

end Scopes

end Lox
