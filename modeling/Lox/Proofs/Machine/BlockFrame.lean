import Lox.Machine
import Lox.Proofs.Agreement
import Lox.Proofs.Scopes.Names
import Mathlib.Data.Finset.Lattice.Lemmas

/-! What a block leaves alone. However it ends, every frame around it has the names it had, and only variables that
the block assigns to can have other values. -/

namespace Lox

def Expr.targets : Expr → Finset String
  | .literal _ | .variable _ => ∅
  | .assign name value => insert name.lexeme value.targets
  | .unary _ operand => operand.targets
  | .binary left _ right => left.targets ∪ right.targets
  | .group inner => inner.targets

namespace Stmt

mutual

def targets : Stmt → Finset String
  | .block body => targetsEach body
  | .expression e | .print e => e.targets
  | .var _ none => ∅
  | .var _ (some e) => e.targets

def targetsEach : List Stmt → Finset String
  | [] => ∅
  | s :: rest => targets s ∪ targetsEach rest

end

end Stmt

variable {assigned : Finset String}

structure Frame.SameBut (assigned : Finset String) (f g : Frame) : Prop where
  enclosing : g.enclosing = f.enclosing
  names : g.names = f.names
  values : ∀ name ∉ assigned, g.get? name = f.get? name

namespace Frame.SameBut

variable {f g k : Frame}

lemma refl (f : Frame) : f.SameBut assigned f :=
  ⟨rfl, rfl, fun _ _ => rfl⟩

lemma trans (h : f.SameBut assigned g) (hn : g.SameBut assigned k) : f.SameBut assigned k where
  enclosing := hn.enclosing.trans h.enclosing
  names := hn.names.trans h.names
  values name hname := (hn.values name hname).trans (h.values name hname)

lemma put {name : String} (hname : name ∈ assigned) (hbound : (f.get? name).isSome = true) (v : Value) :
    f.SameBut assigned (f.put name v) where
  enclosing := f.enclosing_put name v
  names := by
    ext m
    rw [Frame.mem_names, Frame.mem_names, get?_put]
    by_cases hm : m = name <;> simp [hm, hbound]
  values m hm := by
    rw [get?_put, if_neg]
    rintro rfl
    exact hm hname

end Frame.SameBut

namespace Scopes

variable {s t u : Scopes} {name : String} {v : Value}

structure SameBut (assigned : Finset String) (s t : Scopes) : Prop where
  size : t.frames.size = s.frames.size
  current : t.current = s.current
  frames : ∀ (i : ℕ) (f : Frame), s.frames[i]? = some f → ∃ g, t.frames[i]? = some g ∧ f.SameBut assigned g

lemma SameBut.assign (hname : name ∈ assigned) (h : s.assign? name v = some t) : s.SameBut assigned t := by
  obtain ⟨i, hi, rfl⟩ := Option.map_eq_some_iff.mp h
  have hbound := List.find?_some hi
  refine ⟨Array.size_modify, rfl, fun j f hf => ?_⟩
  by_cases hj : i = j
  · subst hj
    refine ⟨f.put name v, by simp [Array.getElem?_modify, hf], .put hname ?_ v⟩
    simpa [getIn?, hf] using hbound
  · exact ⟨f, by simpa [Array.getElem?_modify, hj] using hf, .refl f⟩

structure Inside (assigned : Finset String) (s t : Scopes) : Prop where
  linked : t.Linked
  current : t.current = s.current
  outer : ∀ (i : ℕ) (f : Frame), i < s.current → s.frames[i]? = some f →
    ∃ g, t.frames[i]? = some g ∧ f.SameBut assigned g

namespace Inside

lemma refl (h : s.Linked) : s.Inside assigned s :=
  ⟨h, rfl, fun _ f _ hf => ⟨f, hf, .refl f⟩⟩

lemma change (h : s.Inside assigned t) (hs : t.SameBut assigned u) (hu : u.Linked) : s.Inside assigned u := by
  refine ⟨hu, hs.current.trans h.current, fun i f hi hf => ?_⟩
  obtain ⟨g, hg, hfg⟩ := h.outer i f hi hf
  obtain ⟨k, hk, hgk⟩ := hs.frames i g hg
  exact ⟨k, hk, hfg.trans hgk⟩

lemma define (h : s.Inside assigned t) (name : String) (v : Value) : s.Inside assigned (t.define name v) := by
  refine ⟨h.linked.define name v, h.current, fun i f hi hf => ?_⟩
  obtain ⟨g, hg, hfg⟩ := h.outer i f hi hf
  -- a declaration is made in the current frame, which is further in
  have hne : t.current ≠ i := h.current ▸ hi.ne'
  exact ⟨g, by simpa [Scopes.define, Array.getElem?_modify, hne] using hg, hfg⟩

lemma leave (hs : s.Linked) (h : s.push.Inside assigned t) : s.SameBut assigned (t.popTo s.current) := by
  have hcurrent : t.current = s.current + 1 := h.current.trans hs.current_push
  refine ⟨?_, rfl, fun i f hf => ?_⟩
  · rw [← hs.current_last, ← (h.linked.popTo hcurrent).current_last]
    rfl
  · obtain ⟨hi, -⟩ := Array.getElem?_eq_some_iff.mp hf
    have hle : i ≤ s.current := by
      have := hs.current_last
      omega
    have hpush : s.push.frames[i]? = some f := by rw [push, Array.getElem?_push_lt hi, ← hf, Array.getElem?_eq_getElem]
    obtain ⟨g, hg, hfg⟩ := h.outer i f (hs.current_push ▸ Nat.lt_succ_of_le hle) hpush
    exact ⟨g, by rw [frames_popTo, if_pos hle, hg], hfg⟩

end Inside

end Scopes

section

variable {s : Scopes}

abbrev Eval.StaysInside (assigned : Finset String) (s : Scopes) {α : Type} (p : Eval α) : Prop :=
  Keeps (s.Inside assigned) p (fun _ => True) fun _ => True

lemma Eval.read_staysInside (name : Token) : (read name).StaysInside assigned s := by
  refine ⟨fun t ht => ?_⟩
  unfold Ends read
  cases t.get? name.lexeme with
  | some v => exact ⟨ht, trivial⟩
  | none => exact ⟨ht, trivial⟩

lemma Eval.assign_staysInside {name : Token} (hname : name.lexeme ∈ assigned) (v : Value) :
    (assign name v).StaysInside assigned s := by
  refine ⟨fun t ht => ?_⟩
  unfold Ends assign
  cases ha : t.assign? name.lexeme v with
  | some u => exact ⟨ht.change (.assign hname ha) (ht.linked.assign? ha).1, trivial⟩
  | none => exact ⟨ht, trivial⟩

lemma Eval.ofExcept_staysInside (r : Except Trouble Value) : (ofExcept r).StaysInside assigned s := by
  refine ⟨fun t ht => ?_⟩
  cases r with
  | ok v => exact ⟨ht, trivial⟩
  | error e => exact ⟨ht, trivial⟩

lemma Expr.eval_staysInside {e : Expr} (h : e.targets ⊆ assigned) : e.eval.StaysInside assigned s := by
  induction e with
  | literal v => exact .pure trivial
  | «variable» name => exact Eval.read_staysInside name
  | group inner ih => exact ih h
  | assign name value ih =>
    rw [targets, Finset.insert_subset_iff] at h
    rw [eval]
    exact (ih h.2).bind fun v _ => (Eval.assign_staysInside h.1 v).bind fun _ _ => .pure trivial
  | unary op operand ih =>
    rw [eval]
    exact (ih h).bind fun v _ => Eval.ofExcept_staysInside _
  | binary left op right ihl ihr =>
    rw [targets, Finset.union_subset_iff] at h
    rw [eval]
    exact (ihl h.1).bind fun a _ => (ihr h.2).bind fun b _ => Eval.ofExcept_staysInside _

end

variable {δ : Type}

namespace Exec

abbrev StaysInside (assigned : Finset String) (s : Scopes) {α : Type} (p : Exec δ α) : Prop :=
  Keeps (fun m => s.Inside assigned m.scopes) p (fun _ => True) fun _ => True

variable {s : Scopes}

lemma note_staysInside (e : Event) : (note e : Exec δ Unit).StaysInside assigned s :=
  ⟨fun _ hm => ⟨hm, trivial⟩⟩

lemma eval_staysInside {e : Expr} (h : e.targets ⊆ assigned) : (eval e : Exec δ Value).StaysInside assigned s := by
  refine ⟨fun m hm => ?_⟩
  have he := (Expr.eval_staysInside h).ends m.scopes hm
  unfold Ends eval
  cases hr : e.eval m.scopes with
  | ok v scopes => exact he.ok hr
  | error t scopes => exact he.stop hr

lemma define_staysInside (name : String) (v : Value) : (define name v : Exec δ Unit).StaysInside assigned s :=
  ⟨fun _ hm => ⟨hm.define name v, trivial⟩⟩

lemma toSink_staysInside (context : InternalFault.Context) (request : EStateM String (Sink δ) Unit) :
    (toSink context request).StaysInside assigned s := by
  refine ⟨fun m hm => ?_⟩
  cases hr : request m.sink with
  | ok _ sink => exact ends_of_ok (toSink_ok hr) ⟨hm, trivial⟩
  | error reason sink => exact ends_of_error (toSink_error hr) ⟨hm, trivial⟩

lemma inScope_sameBut {body : Exec δ Unit} (h : ∀ s, body.StaysInside assigned s) {m : Machine δ}
    (hm : m.scopes.Linked) :
    Ends (inScope body) m (fun _ m' => m.scopes.SameBut assigned m'.scopes ∧ m'.scopes.Linked)
      (fun _ m' => m.scopes.SameBut assigned m'.scopes ∧ m'.scopes.Linked) := by
  have hbody := (h m.scopes.push).ends m.enterScope (.refl hm.push)
  have hleave {t : Scopes} (ht : m.scopes.push.Inside assigned t) :
      m.scopes.SameBut assigned (t.popTo m.scopes.current) ∧ (t.popTo m.scopes.current).Linked :=
    ⟨ht.leave hm, ht.linked.popTo (ht.current.trans hm.current_push)⟩
  cases hr : body m.enterScope with
  | ok a m' =>
    have hrun : inScope body m = .ok () (m'.leaveScope m.scopes.current) := by simp only [inScope, hr]
    exact ends_of_ok hrun (hleave (hbody.ok hr).1)
  | error t m' =>
    have hrun : inScope body m = .error t (m'.leaveScope m.scopes.current) := by simp only [inScope, hr]
    exact ends_of_error hrun (hleave (hbody.stop hr).1)

lemma inScope_staysInside {body : Exec δ Unit} (h : ∀ s, body.StaysInside assigned s) :
    (inScope body).StaysInside assigned s := by
  refine ⟨fun m hm => ?_⟩
  apply (inScope_sameBut h hm.linked).mono
  · exact fun _ m' hs => ⟨hm.change hs.1 hs.2, trivial⟩
  · exact fun _ m' hs => ⟨hm.change hs.1 hs.2, trivial⟩

end Exec

namespace Stmt

variable [Device δ]

mutual

lemma exec_staysInside : ∀ (st : Stmt), st.targets ⊆ assigned → ∀ s, (st.exec : Exec δ Unit).StaysInside assigned s
  | .block body, h, s => by
    rw [exec]
    exact Exec.inScope_staysInside (execAll_staysInside body h)
  | .expression e, h, s => by
    rw [exec]
    exact (Exec.eval_staysInside h).bind fun _ _ => .pure trivial
  | .print e, h, s => by
    rw [exec]
    exact (Exec.eval_staysInside h).bind fun v _ => Exec.toSink_staysInside _ _
  | .var name none, _, s => by
    have hnil : (pure .nil : Exec δ Value).StaysInside assigned s := .pure trivial
    rw [exec]
    exact hnil.bind fun v _ => Exec.define_staysInside name.lexeme v
  | .var name (some e), h, s => by
    rw [exec]
    exact (Exec.eval_staysInside h).bind fun v _ => Exec.define_staysInside name.lexeme v

lemma execAll_staysInside : ∀ (body : List Stmt), targetsEach body ⊆ assigned →
    ∀ s, (execAll body : Exec δ Unit).StaysInside assigned s
  | [], _, s => by
    rw [execAll]
    exact .pure trivial
  | st :: rest, h, s => by
    rw [targetsEach, Finset.union_subset_iff] at h
    rw [execAll]
    exact (Exec.note_staysInside _).bind fun _ _ => (exec_staysInside st h.1 s).bind fun _ _ =>
      execAll_staysInside rest h.2 s

end

end Stmt

theorem Exec.inScope_keeps_frames [Device δ] (body : List Stmt) (m : Machine δ) (h : m.scopes.Linked) :
    Ends (inScope (Stmt.execAll body)) m
      (fun _ m' => m.scopes.SameBut (Stmt.targetsEach body) m'.scopes ∧ m'.scopes.Linked)
      (fun _ m' => m.scopes.SameBut (Stmt.targetsEach body) m'.scopes ∧ m'.scopes.Linked) :=
  inScope_sameBut (Stmt.execAll_staysInside body (Finset.Subset.refl _)) h

def innerPrint : List Stmt :=
  -- `a = true; { var b; print b; }`
  let a : Token := ⟨.identifier "a", "a", 1⟩
  let b : Token := ⟨.identifier "b", "b", 1⟩
  [.expression (.assign a (.literal (.bool true))), .block [.var b none, .print (.variable b)]]

def Machine.cramped : Machine Buffer :=
  -- In a block with a `b` of its own, with room for two more bytes.
  { start ⟨.empty, ⟨some 2, false⟩⟩ with scopes := (Scopes.global.define "a" .nil).push.define "b" (.bool true) }

theorem Exec.inScope_keeps_frames_innerPrint :
    Machine.cramped.scopes.Linked ∧ Stmt.targetsEach innerPrint = {"a"} ∧
      ∃ m', inScope (Stmt.execAll innerPrint) .cramped =
          .error (.internal (.within .writing (.refused "sink full"))) m' ∧
        m'.scopes.getIn? "a" 0 = some (.bool true) ∧ Machine.cramped.scopes.SameBut {"a"} m'.scopes ∧
        m'.scopes.Linked := by
  have hl : Machine.cramped.scopes.Linked := (Scopes.linked_global.define "a" .nil).push.define "b" (.bool true)
  have htargets : Stmt.targetsEach innerPrint = {"a"} := by decide
  have hrun : ∃ m', inScope (Stmt.execAll innerPrint) .cramped =
      .error (.internal (.within .writing (.refused "sink full"))) m' ∧
      m'.scopes.getIn? "a" 0 = some (.bool true) := ⟨_, rfl, rfl⟩
  obtain ⟨m', hm', ha⟩ := hrun
  have hends := (inScope_keeps_frames innerPrint .cramped hl).stop hm'
  rw [htargets] at hends
  exact ⟨hl, htargets, m', hm', ha, hends⟩

end Lox
