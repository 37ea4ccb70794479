import Lox.Proofs.Machine.OnStack

namespace Lox

namespace Scopes

inductive Step : Scopes → Scopes → Prop
  | stay (s : Scopes) : Step s s
  | define (s : Scopes) (name : String) (v : Value) : Step s (s.define name v)
  | assign {s t : Scopes} {name : String} {v : Value} : s.assign? name v = some t → Step s t
  | enter (s : Scopes) : Step s s.push
  | leave {s : Scopes} {n : ℕ} : s.current = n + 1 → Step s (s.popTo n)

lemma Linked.step {s t : Scopes} (h : s.Linked) (hs : s.Step t) : t.Linked := by
  cases hs with
  | stay => exact h
  | define name v => exact h.define name v
  | assign ha => exact (h.assign? ha).1
  | enter => exact h.push
  | leave hn => exact h.popTo hn

inductive Path : Scopes → List Scopes → Scopes → Prop
  | here (s : Scopes) : Path s [s] s
  | cons {s t u : Scopes} {trail : List Scopes} : Step s t → Path t trail u → Path s (s :: trail) u

namespace Path

variable {s t u v : Scopes} {trail rest : List Scopes}

lemma append (h : Path s trail t) (hs : Step t u) (hr : Path u rest v) : Path s (trail ++ rest) v := by
  induction h with
  | here s => exact .cons hs hr
  | cons hs' _ ih => exact .cons hs' (ih hs)

lemma linked (h : Path s trail t) (hs : s.Linked) : ∀ u ∈ trail, u.Linked := by
  induction h with
  | here s => simpa using hs
  | cons hstep _ ih =>
    rw [List.forall_mem_cons]
    exact ⟨hs, ih (hs.step hstep)⟩

end Path

end Scopes

open Scopes

section

variable {ε σ α β : Type} {p : EStateM ε σ α} {f : α → EStateM ε σ β} {s : σ}

def following (r : EStateM.Result ε σ α) (next : α → σ → List Scopes) : List Scopes :=
  match r with
  | .ok a s => next a s
  | .error _ _ => []

lemma Scopes.Path.following (view : σ → Scopes) {next : α → σ → List Scopes} {start : Scopes} {trail : List Scopes}
    (h : Path start trail (view (stateAfter p s)))
    (hn : ∀ a t, p s = .ok a t → ∃ u, Step (view t) u ∧ Path u (next a t) (view (stateAfter (f a) t))) :
    Path start (trail ++ following (p s) next) (view (stateAfter (p >>= f) s)) := by
  cases hp : p s with
  | ok a t =>
    obtain ⟨u, hu, hr⟩ := hn a t hp
    simp only [stateAfter, hp] at h
    simp only [stateAfter, bind_eq_of_ok hp]
    exact h.append hu hr
  | error e t =>
    simp only [stateAfter, hp] at h
    simpa only [stateAfter, bind_eq_of_error hp, Lox.following, List.append_nil] using h

end

def Expr.trail : Expr → Scopes → List Scopes
  | .literal _, s => [s]
  | .variable _, s => [s]
  | .group inner, s => inner.trail s
  | .unary _ operand, s => operand.trail s
  | .assign name value, s =>
    value.trail s ++ following (value.eval s) fun v t => [stateAfter (Eval.assign name v) t]
  | .binary left _ right, s => left.trail s ++ following (left.eval s) fun _ t => right.trail t

variable {δ : Type}

namespace Stmt

variable [Device δ]

mutual

def trail : Stmt → Machine δ → List Scopes
  | .block body, m => m.scopes :: trailAll body m.enterScope ++ [(stateAfter (exec (.block body)) m).scopes]
  | .expression e, m => e.trail m.scopes
  | .print e, m => e.trail m.scopes ++ following (Exec.eval e m) fun _ m => [m.scopes]
  | .var name none, m => [m.scopes, m.scopes.define name.lexeme .nil]
  | .var name (some e), m =>
    e.trail m.scopes ++ following (Exec.eval e m) fun v m => [m.scopes.define name.lexeme v]

def trailAll : List Stmt → Machine δ → List Scopes
  | [], m => [m.scopes]
  | s :: rest, m =>
    let m := m.note (.executing s)
    trail s m ++ following (exec s m) fun _ m => trailAll rest m

end

end Stmt

namespace Eval

lemma stateAfter_read (name : Token) (s : Scopes) : stateAfter (read name) s = s := by
  simp only [stateAfter, read]
  cases s.get? name.lexeme <;> rfl

lemma step_assign (name : Token) (v : Value) (s : Scopes) : s.Step (stateAfter (assign name v) s) := by
  simp only [stateAfter, assign]
  cases hs : s.assign? name.lexeme v with
  | some t => exact .assign hs
  | none => exact .stay s

lemma stateAfter_ofExcept {α : Type} (r : Except Trouble α) (s : Scopes) : stateAfter (ofExcept r) s = s := by
  cases r <;> rfl

end Eval

lemma Expr.trail_path (e : Expr) (s : Scopes) : Path s (e.trail s) (stateAfter e.eval s) := by
  induction e generalizing s with
  | literal v => exact .here s
  | «variable» name =>
    rw [eval, Eval.stateAfter_read]
    exact .here s
  | group inner ih => exact ih s
  | unary op operand ih =>
    rw [eval, stateAfter_bind_of_still fun _ => Eval.stateAfter_ofExcept _]
    exact ih s
  | assign name value ih =>
    rw [eval]
    refine .following id (ih s) fun v t _ => ⟨_, Eval.step_assign name v t, ?_⟩
    rw [stateAfter_bind_of_still fun _ _ => rfl]
    exact .here _
  | binary left op right ihl ihr =>
    rw [eval]
    refine .following id (ihl s) fun a t _ => ⟨t, .stay t, ?_⟩
    rw [stateAfter_bind_of_still fun _ => Eval.stateAfter_ofExcept _]
    exact ihr t

namespace Exec

lemma stateAfter_eval (e : Expr) (m : Machine δ) :
    stateAfter (eval e) m = { m with scopes := stateAfter e.eval m.scopes } := by
  simp only [stateAfter, eval]
  cases e.eval m.scopes <;> rfl

lemma eval_path (e : Expr) (m : Machine δ) : Path m.scopes (e.trail m.scopes) (stateAfter (eval e) m).scopes := by
  rw [stateAfter_eval]
  exact e.trail_path m.scopes

lemma scopes_toSink (context : InternalFault.Context) (request : EStateM String (Sink δ) Unit) (m : Machine δ) :
    (stateAfter (toSink context request) m).scopes = m.scopes := by
  simp only [stateAfter, toSink]
  cases request m.sink <;> rfl

lemma stateAfter_inScope (body : Exec δ Unit) (m : Machine δ) :
    stateAfter (inScope body) m = (stateAfter body m.enterScope).leaveScope m.scopes.current := by
  simp only [stateAfter, inScope]
  cases body m.enterScope <;> rfl

end Exec

namespace Stmt

variable [Device δ]

lemma current_execAll {m : Machine δ} (h : m.scopes.Linked) (body : List Stmt) :
    (stateAfter (execAll body) m).scopes.current = m.scopes.current :=
  ((execAll_agrees body m.scopes.current).ends_left (P := fun m' => m'.scopes.current = m.scopes.current)
    ⟨h, rfl, rfl⟩ fun _ _ hm => hm.blocks).stateAfter

lemma linked_exec {m m' : Machine δ} (h : m.scopes.Linked) {s : Stmt} (hs : s.exec m = .ok () m') : m'.scopes.Linked :=
  ((s.exec_agrees m.scopes.current).ends_left ⟨h, rfl, rfl⟩ fun _ _ hm => hm.linked).ok hs

mutual

lemma trail_path : ∀ (s : Stmt) (m : Machine δ), m.scopes.Linked →
    Path m.scopes (s.trail m) (stateAfter s.exec m).scopes
  | .block body, m, h => by
    have hin := trailAll_path body m.enterScope h.push
    -- However the body ends, its own frame is current again, and that is the frame that is left.
    have hout : (stateAfter (execAll body) m.enterScope).scopes.current = m.scopes.current + 1 :=
      (current_execAll h.push body).trans h.current_push
    rw [trail, exec, Exec.stateAfter_inScope]
    exact (Path.cons (.enter m.scopes) hin).append (.leave hout) (.here _)
  | .expression e, m, _ => by
    rw [trail, exec, stateAfter_bind_of_still fun _ _ => rfl]
    exact Exec.eval_path e m
  | .print e, m, _ => by
    rw [trail, exec]
    refine (Exec.eval_path e m).following Machine.scopes fun v m' _ => ⟨_, .stay _, ?_⟩
    rw [Exec.printLine, Exec.scopes_toSink]
    exact .here _
  | .var name none, m, _ => by
    rw [trail, exec]
    exact .cons (.define _ _ _) (.here _)
  | .var name (some e), m, _ => by
    rw [trail, exec]
    exact (Exec.eval_path e m).following Machine.scopes fun v m' _ => ⟨_, .define _ _ _, .here _⟩

lemma trailAll_path : ∀ (body : List Stmt) (m : Machine δ), m.scopes.Linked →
    Path m.scopes (trailAll body m) (stateAfter (execAll body) m).scopes
  | [], m, _ => by
    rw [trailAll, execAll]
    exact .here _
  | s :: rest, m, h => by
    have hm : (m.note (.executing s)).scopes.Linked := h
    rw [trailAll, execAll]
    refine (trail_path s _ hm).following Machine.scopes fun _ m' hm' => ⟨_, .stay _, ?_⟩
    exact trailAll_path rest m' (linked_exec hm hm')

end

end Stmt

end Lox
