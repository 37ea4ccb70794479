import Lox.Proofs.Machine.Refinement
import Lox.Proofs.Scopes.Names

/-! A check of names before a program runs. It walks the program in the order of evaluation and stops at the first
name that no scope has. -/

namespace Lox

def Names.find (scopes : Names) (name : Token) : Except Token Unit :=
  if scopes.Has name.lexeme then .ok () else .error name

def Expr.check (scopes : Names) : Expr → Except Token Unit
  | .literal _ => return
  | .variable name => scopes.find name
  | .group inner => inner.check scopes
  | .unary _ operand => operand.check scopes
  | .binary left _ right => do
    left.check scopes
    right.check scopes
  | .assign name value => do
    value.check scopes
    scopes.find name

namespace Stmt

mutual

def check (scopes : Names) : Stmt → Except Token Names
  | .block body => do
    let inner ← checkAll (∅ :: scopes) body
    return inner.tail
  | .expression e => do
    e.check scopes
    return scopes
  | .print e => do
    e.check scopes
    return scopes
  | .var name none => return scopes.declare name.lexeme
  | .var name (some e) => do
    e.check scopes
    return scopes.declare name.lexeme

def checkAll (scopes : Names) : List Stmt → Except Token Names
  | [] => return scopes
  | s :: rest => do
    let scopes ← check scopes s
    checkAll scopes rest

end

end Stmt

def Trouble.FoundBy {α : Type} (t : Trouble) (check : Except Token α) : Prop :=
  ∀ fault name, t = .runtime fault → fault.kind = .undefinedVariable name →
    ∃ token, check = .error token ∧ fault = .undefined token

/-- A run that ends well was checked well, and otherwise stops at no other name than the check. -/
def Follows {σ α β : Type} (p : EStateM Trouble σ α) (s : σ) (check : Except Token β) (after : β → σ → Prop) : Prop :=
  Ends p s (fun _ t => ∃ b, check = .ok b ∧ after b t) (fun t _ => t.FoundBy check)

namespace Follows

variable {σ α β γ δ : Type} {p : EStateM Trouble σ α} {f : α → EStateM Trouble σ γ} {s : σ} {check : Except Token β}
  {after : β → σ → Prop} {v : α} {b : β}

lemma ok {t : σ} {a : α} (h : Follows p s check after) (hp : p s = .ok a t) : ∃ b, check = .ok b ∧ after b t :=
  Ends.ok h hp

lemma stop {t : σ} {trouble : Trouble} (h : Follows p s check after) (hp : p s = .error trouble t) :
    trouble.FoundBy check := by
  simpa only [Follows, Ends, hp] using h

lemma mono {after' : β → σ → Prop} (h : Follows p s check after) (ha : ∀ b t, after b t → after' b t) :
    Follows p s check after' :=
  Ends.mono h (fun _ t ⟨b, hb, hc⟩ => ⟨b, hb, ha b t hc⟩) fun _ _ ht => ht

lemma pure (h : after b s) : Follows (Pure.pure v) s (.ok b) after :=
  ⟨b, rfl, h⟩

lemma bind {next : β → Except Token δ} {after' : δ → σ → Prop} (hp : Follows p s check after)
    (hf : ∀ a b t, after b t → Follows (f a) t (next b) after') : Follows (p >>= f) s (check >>= next) after' := by
  rw [Follows, ends_bind]
  apply Ends.mono hp
  · rintro a t ⟨b, rfl, hb⟩
    exact hf a b t hb
  · intro t _ ht fault name htr hk
    obtain ⟨token, rfl, hfault⟩ := ht fault name htr hk
    exact ⟨token, rfl, hfault⟩

lemma bind_unchecked (hp : Follows p s check after) (hf : ∀ a b t, after b t → Follows (f a) t (.ok b) after) :
    Follows (p >>= f) s check after := by
  have h := hp.bind hf
  rwa [show check >>= Except.ok = check from bind_pure check] at h

lemma ofExcept {r : Except Trouble α}
    (hr : ∀ fault name, r = .error (.runtime fault) → fault.kind ≠ .undefinedVariable name) (h : after b s) :
    Follows (MonadExcept.ofExcept r) s (.ok b) after := by
  cases r with
  | ok v => exact .pure h
  | error t =>
    rintro fault name rfl hk
    exact absurd hk (hr fault name rfl)

end Follows

lemma applyUnary_kind {op : Token} {v : Value} {fault : RuntimeFault} (h : applyUnary op v = .error (.runtime fault))
    (name : String) : fault.kind ≠ .undefinedVariable name := by
  rw [applyUnary] at h
  split at h
  · split at h <;> cases h
    simp [RuntimeFault.ofToken]
  · cases h
  · cases h

lemma applyNumeric_ne_runtime (op : Token) (x y : Float) (fault : RuntimeFault) :
    applyNumeric op x y ≠ .error (.runtime fault) := by
  rw [applyNumeric]
  split <;> simp

lemma applyBinary_kind {op : Token} {a b : Value} {fault : RuntimeFault}
    (h : applyBinary op a b = .error (.runtime fault)) (name : String) : fault.kind ≠ .undefinedVariable name := by
  rw [applyBinary] at h
  split at h
  · split at h <;> cases h
    simp [RuntimeFault.ofToken]
  · cases h
  · cases h
  · split at h
    · exact absurd h (applyNumeric_ne_runtime _ _ _ _)
    · cases h
      simp [RuntimeFault.ofToken]

namespace StackEval

variable {s : Stack} {scopes : Names}

lemma undefined_foundBy (name : Token) (h : ¬scopes.Has name.lexeme) :
    (Trouble.runtime (.undefined name)).FoundBy (scopes.find name) := by
  rintro _ _ ⟨⟩ _
  exact ⟨name, if_neg h, rfl⟩

lemma read_follows (h : s.Binds scopes) (name : Token) :
    Follows (read name) s (scopes.find name) (fun _ t => t.Binds scopes) := by
  have hn := h.isSome_get? name.lexeme
  cases hs : s.get? name.lexeme with
  | some v =>
    have hread : read name s = .ok v s := by simp only [read, hs]
    exact ends_of_ok hread ⟨(), if_pos (hn.mp (by simp [hs])), h⟩
  | none =>
    have hread : read name s = .error (.runtime (.undefined name)) s := by simp only [read, hs]
    exact ends_of_error hread (undefined_foundBy name (by simp [← hn, hs]))

lemma assign_follows (h : s.Binds scopes) (name : Token) (v : Value) :
    Follows (assign name v) s (scopes.find name) (fun _ t => t.Binds scopes) := by
  have hn := h.isSome_assign? name.lexeme v
  cases hs : s.assign? name.lexeme v with
  | some t =>
    have hassign : assign name v s = .ok () t := by simp only [assign, hs]
    exact ends_of_ok hassign ⟨(), if_pos (hn.mp (by simp [hs])), h.assign? hs⟩
  | none =>
    have hassign : assign name v s = .error (.runtime (.undefined name)) s := by simp only [assign, hs]
    exact ends_of_error hassign (undefined_foundBy name (by simp [← hn, hs]))

end StackEval

lemma Expr.evalOnStack_follows (e : Expr) {s : Stack} {scopes : Names} (h : s.Binds scopes) :
    Follows e.evalOnStack s (e.check scopes) (fun _ t => t.Binds scopes) := by
  induction e generalizing s with
  | literal v => exact .pure h
  | «variable» name => exact StackEval.read_follows h name
  | group inner ih => exact ih h
  | unary op operand ih =>
    rw [evalOnStack, check]
    exact (ih h).bind_unchecked fun v _ t ht => .ofExcept (fun _ name hr => applyUnary_kind hr name) ht
  | assign name value ih =>
    rw [evalOnStack, check]
    refine (ih h).bind fun v _ t ht => ?_
    exact (StackEval.assign_follows ht name v).bind_unchecked fun _ _ u hu => .pure hu
  | binary left op right ihl ihr =>
    rw [evalOnStack, check]
    refine (ihl h).bind fun a _ t ht => ?_
    exact (ihr ht).bind_unchecked fun b _ u hu => .ofExcept (fun _ name hr => applyBinary_kind hr name) hu

variable {δ : Type}

namespace StackExec

variable {m : StackMachine δ} {scopes : Names}

lemma eval_follows (e : Expr) (h : m.stack.Binds scopes) :
    Follows (eval e) m (e.check scopes) (fun _ m' => m'.stack.Binds scopes) := by
  have he := e.evalOnStack_follows h
  cases hr : e.evalOnStack m.stack with
  | ok v s =>
    have hrun : eval e m = .ok v { m with stack := s } := by simp only [eval, hr]
    exact ends_of_ok hrun (he.ok hr)
  | error t s =>
    have hrun : eval e m = .error t { m with stack := s } := by simp only [eval, hr]
    exact ends_of_error hrun (he.stop hr)

def Declared (scopes names : Names) (m : StackMachine δ) : Prop :=
  names.tail = scopes.tail ∧ m.stack.Binds names

lemma internal_foundBy {α : Type} (fault : InternalFault) (check : Except Token α) :
    (Trouble.internal fault).FoundBy check := by
  rintro _ _ ⟨⟩

lemma toSink_follows {after : Names → StackMachine δ → Prop} {names : Names}
    (h : ∀ sink, after names { m with sink }) (context : InternalFault.Context)
    (request : EStateM String (Sink δ) Unit) : Follows (toSink context request) m (.ok names) after := by
  unfold Follows Ends toSink
  cases request m.sink with
  | ok _ sink => exact ⟨names, rfl, h sink⟩
  | error reason sink => exact internal_foundBy _ _

lemma define_follows (name : String) (v : Value) (h : m.stack.Binds scopes) :
    Follows (define name v) m (.ok (scopes.declare name)) (Declared scopes) := by
  refine ⟨_, rfl, ?_, h.define name v⟩
  cases scopes <;> rfl

lemma inScope_follows {body : StackExec δ Unit} {check : Except Token Names} (h : m.stack.Binds scopes)
    (hb : Follows body { m with stack := m.stack.push } check (Declared (∅ :: scopes))) :
    Follows (inScope body) m (check >>= fun inner => .ok inner.tail) (Declared scopes) := by
  cases hr : body { m with stack := m.stack.push } with
  | ok _ m' =>
    obtain ⟨inner, rfl, htail, hbinds⟩ := hb.ok hr
    have hrun : inScope body m = .ok () { m' with stack := m'.stack.pop } := by simp only [inScope, hr]
    refine ends_of_ok hrun ⟨inner.tail, rfl, ?_, ?_⟩
    · rw [htail, List.tail_cons]
    -- Only the innermost set may have grown, and it goes with its scope.
    · rw [← List.cons_head_tail hbinds.ne_nil, htail] at hbinds
      rw [htail]
      exact hbinds.pop h.ne_nil
  | error t m' =>
    have hrun : inScope body m = .error t { m' with stack := m'.stack.pop } := by simp only [inScope, hr]
    refine ends_of_error hrun ?_
    intro fault name ht hk
    obtain ⟨token, rfl, hf⟩ := hb.stop hr fault name ht hk
    exact ⟨token, rfl, hf⟩

end StackExec

namespace Stmt

open StackExec

variable [Device δ]

mutual

lemma execOnStack_follows : ∀ (s : Stmt) {m : StackMachine δ} {scopes : Names}, m.stack.Binds scopes →
    Follows s.execOnStack m (s.check scopes) (Declared scopes)
  | .block body, m, scopes, h => by
    rw [execOnStack, check]
    exact inScope_follows h (execAllOnStack_follows body h.push)
  | .expression e, m, scopes, h => by
    rw [execOnStack, check]
    exact (eval_follows e h).bind fun _ _ m' hm => .pure ⟨rfl, hm⟩
  | .print e, m, scopes, h => by
    rw [execOnStack, check]
    exact (eval_follows e h).bind fun v _ m' hm => toSink_follows (fun _ => ⟨rfl, hm⟩) _ _
  | .var name none, m, scopes, h => by
    rw [execOnStack, check]
    exact define_follows name.lexeme .nil h
  | .var name (some e), m, scopes, h => by
    rw [execOnStack, check]
    exact (eval_follows e h).bind fun v _ m' hm => define_follows name.lexeme v hm

lemma execAllOnStack_follows : ∀ (body : List Stmt) {m : StackMachine δ} {scopes : Names}, m.stack.Binds scopes →
    Follows (execAllOnStack body) m (checkAll scopes body) (Declared scopes)
  | [], m, scopes, h => by
    rw [execAllOnStack, checkAll]
    exact .pure ⟨rfl, h⟩
  | s :: rest, m, scopes, h => by
    rw [execAllOnStack, checkAll]
    refine (execOnStack_follows s h).bind fun _ names m' hm => ?_
    exact (execAllOnStack_follows rest hm.2).mono fun _ _ hd => ⟨hd.1.trans hm.1, hd.2⟩

end

end Stmt

lemma interpretOnStack_follows [Device δ] (statements : List Stmt) {m : StackMachine δ} {scopes : Names}
    (h : m.stack.Binds scopes) :
    Follows (interpretOnStack statements) m (Stmt.checkAll scopes statements) (StackExec.Declared scopes) :=
  (Stmt.execAllOnStack_follows statements h).bind_unchecked fun _ _ _ hm => StackExec.toSink_follows (fun _ => hm) _ _

theorem interpret_check_exact [Device δ] (m : Machine δ) (hm : m.Reachable) (statements : List Stmt) :
    (∀ names, Stmt.checkAll m.scopes.names statements = .ok names →
      ∀ fault m', interpret statements m = .error (.runtime fault) m' →
        ∀ name, fault.kind ≠ .undefinedVariable name) ∧
      ∀ token, Stmt.checkAll m.scopes.names statements = .error token →
        (∀ m', interpret statements m ≠ .ok () m') ∧
        ∀ fault m', interpret statements m = .error (.runtime fault) m' →
          ∀ name, fault.kind = .undefinedVariable name → fault = .undefined token := by
  have hr := hm.atRest
  have hb : m.onStack.stack.Binds m.scopes.names := hr.linked.binds
  have he := (interpret_agrees statements 0).transfer hr.shows (interpretOnStack_follows statements hb)
  refine ⟨?_, ?_⟩
  · intro names hc fault m' hi name hk
    obtain ⟨_, -, hfound⟩ := he.stop hi
    obtain ⟨token, ht, -⟩ := hfound fault name rfl hk
    rw [hc] at ht
    cases ht
  · intro token hc
    refine ⟨?_, ?_⟩
    · intro m' hi
      obtain ⟨_, -, names, hn, -⟩ := he.ok hi
      rw [hc] at hn
      cases hn
    · intro fault m' hi name hk
      obtain ⟨_, -, hfound⟩ := he.stop hi
      obtain ⟨_, ht, rfl⟩ := hfound fault name rfl hk
      rw [hc] at ht
      cases ht
      rfl

def leakedName : List Stmt :=
  -- `var a; { var b = a; b = a; }` and, on line 2, `a = b;`
  let a : Token := ⟨.identifier "a", "a", 1⟩
  let b : Token := ⟨.identifier "b", "b", 1⟩
  [.var a none, .block [.var b (some (.variable a)), .expression (.assign b (.variable a))],
    .expression (.assign a (.variable { b with line := 2 }))]

theorem interpret_check_exact_leakedName :
    Machine.interrupted.Reachable ∧
      Stmt.checkAll Machine.interrupted.scopes.names leakedName = .error ⟨.identifier "b", "b", 2⟩ ∧
      (∀ m', interpret leakedName .interrupted ≠ .ok () m') ∧
      ∀ fault m', interpret leakedName .interrupted = .error (.runtime fault) m' →
        ∀ name, fault.kind = .undefinedVariable name → fault = .undefined ⟨.identifier "b", "b", 2⟩ := by
  have hm : Machine.interrupted.Reachable := .interpret Machine.nestedPrint (.start _)
  have hc : Stmt.checkAll Machine.interrupted.scopes.names leakedName = .error ⟨.identifier "b", "b", 2⟩ := by rfl
  exact ⟨hm, hc, (interpret_check_exact .interrupted hm leakedName).2 _ hc⟩

end Lox
