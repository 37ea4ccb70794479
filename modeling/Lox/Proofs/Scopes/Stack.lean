import Lox.Scopes
import Mathlib.Data.Nat.Notation
import Mathlib.Logic.Function.Basic
import Mathlib.Order.Nat
import Mathlib.Tactic.Lemma

/-! Scopes as a plain stack of maps. Frames that are linked each to the one before it are such a stack, whatever
their numbers. -/

namespace Lox

abbrev Bindings : Type :=
  String → Option Value

inductive Stack where
  | global (vars : Bindings)
  | scope (vars : Bindings) (outer : Stack)

namespace Stack

def get? (name : String) : Stack → Option Value
  | .global vars => vars name
  | .scope vars outer => (vars name).or (outer.get? name)

def define (name : String) (v : Value) : Stack → Stack
  | .global vars => .global (Function.update vars name (some v))
  | .scope vars outer => .scope (Function.update vars name (some v)) outer

def assign? (name : String) (v : Value) : Stack → Option Stack
  | .global vars => if (vars name).isSome then some (define name v (.global vars)) else none
  | .scope vars outer =>
    if (vars name).isSome then some (define name v (.scope vars outer))
    else (outer.assign? name v).map (.scope vars)

def push (s : Stack) : Stack :=
  .scope (fun _ => none) s

def pop : Stack → Stack
  | .global vars => .global vars
  | .scope _ outer => outer

lemma isSome_assign? (s : Stack) (name : String) (v : Value) :
    (s.assign? name v).isSome = (s.get? name).isSome := by
  induction s with
  | global vars => by_cases hs : (vars name).isSome = true <;> simp [assign?, get?, hs]
  | scope vars outer ih => by_cases hs : (vars name).isSome = true <;> simp [assign?, get?, hs, ih]

end Stack

namespace Scopes

variable {s t : Scopes} {name : String} {v : Value} {i j n : ℕ}

/-- Every frame is linked to the one before it, and the last one is current. -/
structure Linked (s : Scopes) : Prop where
  current_last : s.current + 1 = s.frames.size
  global_link : ∀ f, s.frames[0]? = some f → f.enclosing = none
  inner_link : ∀ i f, s.frames[i + 1]? = some f → f.enclosing = some i

structure InBounds (s : Scopes) : Prop where
  current_lt : s.current < s.frames.size
  link_lt : ∀ f ∈ s.frames, ∀ i ∈ f.enclosing, i < s.frames.size

lemma Linked.inBounds (h : s.Linked) : s.InBounds where
  current_lt := h.current_last ▸ Nat.lt_succ_self s.current
  link_lt f hf i hi := by
    obtain ⟨j, hj⟩ := Array.mem_iff_getElem?.mp hf
    obtain ⟨hlt, -⟩ := Array.getElem?_eq_some_iff.mp hj
    cases j with
    | zero =>
      rw [h.global_link f hj] at hi
      cases hi
    | succ j =>
      rw [h.inner_link j f hj] at hi
      cases hi
      omega

lemma linked_global : global.Linked where
  current_last := rfl
  global_link f hf := by
    cases hf
    rfl
  inner_link i f hf := by simp [global] at hf

def stackAt (s : Scopes) : ℕ → Stack
  | 0 => .global (s.getIn? · 0)
  | i + 1 => .scope (s.getIn? · (i + 1)) (s.stackAt i)

def stack (s : Scopes) : Stack :=
  s.stackAt s.current

lemma stackAt_congr (h : ∀ j ≤ i, ∀ name, s.getIn? name j = t.getIn? name j) : s.stackAt i = t.stackAt i := by
  induction i with
  | zero =>
    rw [stackAt, stackAt]
    congr 1
    funext name
    exact h 0 le_rfl name
  | succ i ih =>
    rw [stackAt, stackAt, ih fun j hj => h j (Nat.le_succ_of_le hj)]
    congr 1
    funext name
    exact h (i + 1) le_rfl name

lemma getIn?_push (hj : j < s.frames.size) : s.push.getIn? name j = s.getIn? name j := by
  simp [getIn?, push, Array.getElem?_push_lt hj, Array.getElem?_eq_getElem hj]

lemma frames_popTo (s : Scopes) (n j : ℕ) :
    (s.popTo n).frames[j]? = if j ≤ n then s.frames[j]? else none := by
  simp only [popTo, Array.take_eq_extract, Array.getElem?_extract]
  by_cases hn : j ≤ n
  · by_cases hj : j < s.frames.size
    · rw [if_pos (by omega), if_pos hn, Nat.zero_add]
    · rw [if_neg (by omega), if_pos hn, Array.getElem?_eq_none (by omega)]
  · rw [if_neg (by omega), if_neg hn]

lemma getIn?_popTo (hj : j ≤ n) : (s.popTo n).getIn? name j = s.getIn? name j := by
  rw [getIn?, frames_popTo, if_pos hj, getIn?]

def putAt (s : Scopes) (i : ℕ) (name : String) (v : Value) : Scopes :=
  { s with frames := s.frames.modify i (·.put name v) }

lemma getIn?_putAt_of_ne (h : i ≠ j) (m : String) : (s.putAt i name v).getIn? m j = s.getIn? m j := by
  simp [getIn?, putAt, Array.getElem?_modify, h]

lemma getIn?_putAt_self (hi : i < s.frames.size) :
    ((s.putAt i name v).getIn? · i) = Function.update (s.getIn? · i) name (some v) := by
  funext m
  by_cases hm : m = name <;>
    simp [getIn?, putAt, Array.getElem?_modify, Array.getElem?_eq_getElem hi, Function.update_apply, hm]

lemma stackAt_putAt_of_lt (h : j < i) : (s.putAt i name v).stackAt j = s.stackAt j :=
  stackAt_congr fun _ hk => getIn?_putAt_of_ne (Nat.ne_of_gt (Nat.lt_of_le_of_lt hk h))

lemma stackAt_putAt_self (hi : i < s.frames.size) : (s.putAt i name v).stackAt i = (s.stackAt i).define name v := by
  cases i with
  | zero => rw [stackAt, getIn?_putAt_self hi, stackAt, Stack.define]
  | succ i => rw [stackAt, getIn?_putAt_self hi, stackAt_putAt_of_lt (Nat.lt_succ_self i), stackAt, Stack.define]

namespace Linked

lemma putAt (h : s.Linked) (i : ℕ) (name : String) (v : Value) : (s.putAt i name v).Linked where
  current_last := by simpa [Scopes.putAt] using h.current_last
  global_link f hf := by
    simp only [Scopes.putAt, Array.getElem?_modify] at hf
    split at hf
    · obtain ⟨g, hg, rfl⟩ := Option.map_eq_some_iff.mp hf
      exact h.global_link g hg
    · exact h.global_link f hf
  inner_link j f hf := by
    simp only [Scopes.putAt, Array.getElem?_modify] at hf
    split at hf
    · obtain ⟨g, hg, rfl⟩ := Option.map_eq_some_iff.mp hf
      exact h.inner_link j g hg
    · exact h.inner_link j f hf

lemma chainFrom_zero (h : s.Linked) (n : ℕ) : s.chainFrom (n + 1) 0 = [0] := by
  have h0 : 0 < s.frames.size := h.current_last ▸ Nat.succ_pos _
  rw [chainFrom, Array.getElem?_eq_getElem h0]
  simp [h.global_link _ (Array.getElem?_eq_getElem h0)]

lemma chainFrom_succ (h : s.Linked) (hi : i + 1 < s.frames.size) (n : ℕ) :
    s.chainFrom (n + 1) (i + 1) = (i + 1) :: s.chainFrom n i := by
  rw [chainFrom, Array.getElem?_eq_getElem hi]
  simp [h.inner_link i _ (Array.getElem?_eq_getElem hi)]

lemma le_of_mem_chainFrom (h : s.Linked) (hi : i < s.frames.size) (hj : j ∈ s.chainFrom (i + 1) i) : j ≤ i := by
  induction i with
  | zero =>
    rw [h.chainFrom_zero, List.mem_singleton] at hj
    exact hj.le
  | succ i ih =>
    rw [h.chainFrom_succ hi, List.mem_cons] at hj
    rcases hj with rfl | hj
    · exact le_rfl
    · exact Nat.le_succ_of_le (ih (Nat.lt_of_succ_lt hi) hj)

lemma findSome?_chainFrom (h : s.Linked) (hi : i < s.frames.size) :
    (s.chainFrom (i + 1) i).findSome? (s.getIn? name) = (s.stackAt i).get? name := by
  induction i with
  | zero => simp [h.chainFrom_zero, stackAt, Stack.get?]
  | succ i ih =>
    rw [h.chainFrom_succ hi, List.findSome?_cons, ih (Nat.lt_of_succ_lt hi), stackAt, Stack.get?]
    cases s.getIn? name (i + 1) <;> rfl

lemma find?_chainFrom (h : s.Linked) (hi : i < s.frames.size) :
    ((s.chainFrom (i + 1) i).find? fun j => (s.getIn? name j).isSome).map
      (fun j => (s.putAt j name v).stackAt i) = (s.stackAt i).assign? name v := by
  induction i with
  | zero =>
    rw [h.chainFrom_zero, stackAt, Stack.assign?, ← stackAt]
    by_cases hs : (s.getIn? name 0).isSome = true
    · simp [hs, stackAt_putAt_self hi]
    · simp [hs]
  | succ i ih =>
    have hi' := Nat.lt_of_succ_lt hi
    rw [h.chainFrom_succ hi, stackAt, Stack.assign?, ← stackAt]
    by_cases hs : (s.getIn? name (i + 1)).isSome = true
    · simp [hs, stackAt_putAt_self hi]
    · rw [List.find?_cons, if_neg hs, ← ih hi', Option.map_map]
      simp only [hs]
      apply Option.map_congr
      intro j hj
      -- The name is bound further out, so the change does not touch frame `i + 1`.
      have hle := h.le_of_mem_chainFrom hi' (List.mem_of_find?_eq_some hj)
      have hne : j ≠ i + 1 := Nat.ne_of_lt (Nat.lt_succ_of_le hle)
      simp only [stackAt, Function.comp, getIn?_putAt_of_ne hne]

lemma chain_eq (h : s.Linked) : s.chain = s.chainFrom (s.current + 1) s.current := by
  rw [chain, h.current_last]

lemma get?_eq (h : s.Linked) (name : String) : s.get? name = s.stack.get? name := by
  rw [get?, h.chain_eq, h.findSome?_chainFrom h.inBounds.current_lt, stack]

lemma assign?_eq (h : s.Linked) (name : String) (v : Value) :
    (s.assign? name v).map stack = s.stack.assign? name v := by
  rw [stack, ← h.find?_chainFrom h.inBounds.current_lt, assign?, h.chain_eq, Option.map_map]
  rfl

lemma assign? (h : s.Linked) (ha : s.assign? name v = some t) : t.Linked ∧ t.current = s.current := by
  obtain ⟨i, -, rfl⟩ := Option.map_eq_some_iff.mp ha
  exact ⟨h.putAt i name v, rfl⟩

lemma define (h : s.Linked) (name : String) (v : Value) : (s.define name v).Linked :=
  h.putAt s.current name v

lemma stack_define (h : s.Linked) (name : String) (v : Value) : (s.define name v).stack = s.stack.define name v :=
  stackAt_putAt_self h.inBounds.current_lt

lemma push (h : s.Linked) : s.push.Linked where
  current_last := by simp [Scopes.push]
  global_link f hf := by
    rw [Scopes.push, Array.getElem?_push_lt (h.current_last ▸ Nat.succ_pos _)] at hf
    exact h.global_link f (by rw [← hf, Array.getElem?_eq_getElem])
  inner_link i f hf := by
    simp only [Scopes.push, Array.getElem?_push] at hf
    split at hf
    · rename_i hi
      cases hf
      have := h.current_last
      rw [show s.current = i by omega]
    · exact h.inner_link i f hf

lemma current_push (h : s.Linked) : s.push.current = s.current + 1 :=
  h.current_last.symm

lemma stack_push (h : s.Linked) : s.push.stack = s.stack.push := by
  have hlast : (s.push.getIn? · (s.current + 1)) = fun _ => none := by
    funext name
    simp [getIn?, Scopes.push, h.current_last, Frame.get?]
  have hbelow : s.push.stackAt s.current = s.stackAt s.current :=
    stackAt_congr fun j hj name => getIn?_push (Nat.lt_of_le_of_lt hj h.inBounds.current_lt)
  rw [stack, h.current_push, stackAt, hlast, hbelow, stack, Stack.push]

lemma popTo (h : s.Linked) (hn : s.current = n + 1) : (s.popTo n).Linked where
  current_last := by
    have := h.current_last
    simp only [Scopes.popTo, Array.take_eq_extract, Array.size_extract]
    omega
  global_link f hf := by
    rw [frames_popTo] at hf
    split at hf
    · exact h.global_link f hf
    · cases hf
  inner_link i f hf := by
    rw [frames_popTo] at hf
    split at hf
    · exact h.inner_link i f hf
    · cases hf

lemma stack_popTo (hn : s.current = n + 1) : (s.popTo n).stack = s.stack.pop := by
  have hbelow : (s.popTo n).stackAt n = s.stackAt n := stackAt_congr fun j hj name => getIn?_popTo hj
  rw [stack, stack, hn, stackAt, Stack.pop]
  exact hbelow

end Linked

end Scopes

end Lox
