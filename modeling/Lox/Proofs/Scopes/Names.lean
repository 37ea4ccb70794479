import Lox.Proofs.Scopes.Stack
import Mathlib.Data.Finset.Insert
import Mathlib.Data.Finset.Dedup

namespace Lox

abbrev Names : Type :=
  List (Finset String)

namespace Names

def Has (scopes : Names) (name : String) : Prop :=
  ∃ names ∈ scopes, name ∈ names

instance (scopes : Names) (name : String) : Decidable (scopes.Has name) :=
  inferInstanceAs (Decidable (∃ names ∈ scopes, name ∈ names))

def declare (name : String) : Names → Names
  | [] => []
  | names :: outer => insert name names :: outer

end Names

namespace Stack

inductive Binds : Stack → Names → Prop
  | global {vars : Bindings} {names : Finset String} : (∀ x, x ∈ names ↔ (vars x).isSome) → Binds (.global vars) [names]
  | scope {vars : Bindings} {names : Finset String} {outer : Stack} {scopes : Names} :
      (∀ x, x ∈ names ↔ (vars x).isSome) → Binds outer scopes → Binds (.scope vars outer) (names :: scopes)

namespace Binds

variable {s t : Stack} {scopes : Names} {name : String} {v : Value}

lemma isSome_get? (h : s.Binds scopes) (name : String) : (s.get? name).isSome ↔ scopes.Has name := by
  induction h with
  | global hv => simp [get?, Names.Has, hv]
  | scope hv _ ih => simp [get?, Names.Has, hv, ih]

lemma mem_update {vars : Bindings} {names : Finset String} (h : ∀ x, x ∈ names ↔ (vars x).isSome) (name : String)
    (v : Value) (x : String) : x ∈ insert name names ↔ (Function.update vars name (some v) x).isSome := by
  by_cases hx : x = name <;> simp [hx, h]

lemma define (h : s.Binds scopes) (name : String) (v : Value) : (s.define name v).Binds (scopes.declare name) := by
  cases h with
  | global hv => exact .global (mem_update hv name v)
  | scope hv ho => exact .scope (mem_update hv name v) ho

lemma insert_of_isSome {vars : Bindings} {names : Finset String} (h : ∀ x, x ∈ names ↔ (vars x).isSome)
    (hs : (vars name).isSome = true) : insert name names = names :=
  Finset.insert_eq_self.mpr ((h name).mpr hs)

lemma assign? (h : s.Binds scopes) (ht : s.assign? name v = some t) : t.Binds scopes := by
  induction h generalizing t with
  | @global vars names hv =>
    rw [Stack.assign?] at ht
    split at ht
    · rename_i hs
      cases ht
      have hd := (Binds.global hv).define name v
      rwa [Names.declare, insert_of_isSome hv hs] at hd
    · cases ht
  | @scope vars names outer scopes hv ho ih =>
    rw [Stack.assign?] at ht
    split at ht
    · rename_i hs
      cases ht
      have hd := (Binds.scope hv ho).define name v
      rwa [Names.declare, insert_of_isSome hv hs] at hd
    · obtain ⟨u, hu, rfl⟩ := Option.map_eq_some_iff.mp ht
      exact .scope hv (ih hu)

lemma isSome_assign? (h : s.Binds scopes) (name : String) (v : Value) :
    (s.assign? name v).isSome ↔ scopes.Has name := by
  rw [← h.isSome_get?, Stack.isSome_assign?]

lemma push (h : s.Binds scopes) : s.push.Binds (∅ :: scopes) :=
  .scope (by simp) h

lemma pop {names : Finset String} (h : s.Binds (names :: scopes)) (hs : scopes ≠ []) : s.pop.Binds scopes := by
  cases h with
  | global => exact absurd rfl hs
  | scope _ ho => exact ho

lemma ne_nil (h : s.Binds scopes) : scopes ≠ [] := by
  cases h <;> simp

end Binds

end Stack

def Frame.names (f : Frame) : Finset String :=
  (f.bindings.map Prod.fst).toFinset

lemma Frame.mem_names (f : Frame) (name : String) : name ∈ f.names ↔ (f.get? name).isSome := by
  rw [names, get?, List.mem_toFinset]
  induction f.bindings with
  | nil => simp
  | cons b bindings ih => by_cases hb : name = b.1 <;> simp [hb, ih]

namespace Scopes

def names (s : Scopes) : Names :=
  (s.frames.toList.map Frame.names).reverse

lemma mem_names_getElem {s : Scopes} {i : ℕ} (hi : i < s.frames.size) (name : String) :
    name ∈ s.frames[i].names ↔ (s.getIn? name i).isSome := by
  rw [getIn?, Array.getElem?_eq_getElem hi]
  exact Frame.mem_names _ name

lemma stackAt_binds {s : Scopes} {i : ℕ} (hi : i < s.frames.size) :
    (s.stackAt i).Binds ((s.frames.toList.take (i + 1)).map Frame.names).reverse := by
  have htake (j : ℕ) (hj : j < s.frames.size) : ((s.frames.toList.take (j + 1)).map Frame.names).reverse =
      s.frames[j].names :: ((s.frames.toList.take j).map Frame.names).reverse := by
    rw [List.take_add_one]
    simp [hj]
  induction i with
  | zero =>
    rw [htake 0 hi]
    exact .global (mem_names_getElem hi)
  | succ i ih =>
    rw [htake (i + 1) hi]
    exact .scope (mem_names_getElem hi) (ih (Nat.lt_of_succ_lt hi))

lemma Linked.binds {s : Scopes} (h : s.Linked) : s.stack.Binds s.names := by
  have hb := stackAt_binds h.inBounds.current_lt
  rwa [h.current_last, ← Array.length_toList, List.take_length] at hb

end Scopes

end Lox
