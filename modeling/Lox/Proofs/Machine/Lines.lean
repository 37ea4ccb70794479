import Lox.Machine
import Lox.Proofs.Agreement
import Lox.Proofs.Lines

namespace Lox

variable {f : ℕ → ℕ}

def Trouble.Moved (f : ℕ → ℕ) (t u : Trouble) : Prop :=
  u = t.mapLine f

lemma applyUnary_mapLine (op : Token) (v : Value) :
    applyUnary (op.mapLine f) v = (applyUnary op v).mapError (Trouble.mapLine f) := by
  rw [applyUnary, applyUnary]
  simp only [Token.mapLine]
  split
  · cases v.number? <;> rfl
  · rfl
  · rfl

lemma applyNumeric_mapLine (op : Token) (x y : Float) :
    applyNumeric (op.mapLine f) x y = (applyNumeric op x y).mapError (Trouble.mapLine f) := by
  rw [applyNumeric, applyNumeric]
  simp only [Token.mapLine]
  split <;> rfl

lemma applyBinary_mapLine (op : Token) (a b : Value) :
    applyBinary (op.mapLine f) a b = (applyBinary op a b).mapError (Trouble.mapLine f) := by
  rw [applyBinary, applyBinary]
  simp only [applyNumeric_mapLine]
  simp only [Token.mapLine]
  split
  · cases a.plus? b <;> rfl
  · rfl
  · rfl
  · cases a.number? <;> cases b.number? <;> rfl

namespace Eval

lemma read_moved (name : Token) : Agrees Eq Eq (Trouble.Moved f) (read name) (read (name.mapLine f)) := by
  refine ⟨?_⟩
  rintro s _ rfl
  cases hs : s.get? name.lexeme with
  | some v =>
    have hread : read name s = .ok v s := by simp only [read, hs]
    exact ends_of_ok hread ⟨v, s, by simp only [read, Token.mapLine, hs], rfl, rfl⟩
  | none =>
    have hread : read name s = .error (.runtime (.undefined name)) s := by simp only [read, hs]
    have hmoved : read (name.mapLine f) s = .error (.runtime (.undefined (name.mapLine f))) s := by
      simp only [read, Token.mapLine, hs]
    exact ends_of_error hread ⟨_, s, hmoved, rfl, rfl⟩

lemma assign_moved (name : Token) (v : Value) :
    Agrees Eq Eq (Trouble.Moved f) (assign name v) (assign (name.mapLine f) v) := by
  refine ⟨?_⟩
  rintro s _ rfl
  cases hs : s.assign? name.lexeme v with
  | some t =>
    have hassign : assign name v s = .ok () t := by simp only [assign, hs]
    exact ends_of_ok hassign ⟨(), t, by simp only [assign, Token.mapLine, hs], rfl, rfl⟩
  | none =>
    have hassign : assign name v s = .error (.runtime (.undefined name)) s := by simp only [assign, hs]
    have hmoved : assign (name.mapLine f) v s = .error (.runtime (.undefined (name.mapLine f))) s := by
      simp only [assign, Token.mapLine, hs]
    exact ends_of_error hassign ⟨_, s, hmoved, rfl, rfl⟩

lemma ofExcept_moved (r : Except Trouble Value) :
    Agrees Eq Eq (Trouble.Moved f) (ofExcept r) (ofExcept (r.mapError (Trouble.mapLine f))) := by
  cases r with
  | ok v => exact .pure rfl
  | error t => exact .throw rfl

end Eval

lemma Expr.eval_moved (e : Expr) : Agrees Eq Eq (Trouble.Moved f) e.eval (e.mapLine f).eval := by
  induction e with
  | literal v => exact .pure rfl
  | «variable» name => exact Eval.read_moved name
  | group inner ih => exact ih
  | unary op operand ih =>
    rw [mapLine, eval, eval]
    refine ih.bind ?_
    rintro v _ rfl
    rw [applyUnary_mapLine]
    exact Eval.ofExcept_moved _
  | assign name value ih =>
    rw [mapLine, eval, eval]
    refine ih.bind ?_
    rintro v _ rfl
    exact (Eval.assign_moved name v).bind fun _ _ _ => .pure rfl
  | binary left op right ihl ihr =>
    rw [mapLine, eval, eval]
    refine ihl.bind ?_
    rintro a _ rfl
    refine ihr.bind ?_
    rintro b _ rfl
    rw [applyBinary_mapLine]
    exact Eval.ofExcept_moved _

variable {δ : Type}

structure Machine.AlikeUpTo (S : Sink δ → Sink δ → Prop) (m n : Machine δ) : Prop where
  scopes : m.scopes = n.scopes
  sink : S m.sink n.sink

abbrev Machine.Alike : Machine δ → Machine δ → Prop :=
  AlikeUpTo Eq

namespace Machine.Alike

variable {m n o : Machine δ}

lemma symm (h : m.Alike n) : n.Alike m :=
  ⟨h.scopes.symm, h.sink.symm⟩

lemma trans (h : m.Alike n) (h' : n.Alike o) : m.Alike o :=
  ⟨h.scopes.trans h'.scopes, h.sink.trans h'.sink⟩

end Machine.Alike

lemma Machine.alike_noteAll (m : Machine δ) (events : List Event) : m.Alike (m.noteAll events) :=
  ⟨rfl, rfl⟩

structure Sink.AnswersAlike [Device δ] (S : Sink δ → Sink δ → Prop) : Prop where
  write (bytes : ByteArray) : Agrees S Eq Eq (write bytes) (write bytes)
  flush : Agrees S Eq Eq flush flush

lemma Sink.answersAlike_eq [Device δ] : AnswersAlike (Eq : Sink δ → Sink δ → Prop) :=
  ⟨fun _ => .refl _, .refl _⟩

variable {S : Sink δ → Sink δ → Prop}

namespace Exec

lemma note_moved (e e' : Event) : Agrees (Machine.AlikeUpTo S) Eq (Trouble.Moved f) (note e) (note e') :=
  ⟨fun _ n h => ⟨(), n.note e', rfl, rfl, h.scopes, h.sink⟩⟩

lemma eval_moved (e : Expr) :
    Agrees (Machine.AlikeUpTo S) Eq (Trouble.Moved f) (eval e) (eval (e.mapLine f)) := by
  refine ⟨?_⟩
  rintro m n ⟨hs, hk⟩
  have he := (e.eval_moved (f := f)).ends m.scopes n.scopes hs
  cases hr : e.eval m.scopes with
  | ok v s =>
    obtain ⟨_, _, hq, rfl, rfl⟩ := he.ok hr
    have hrun : eval e m = .ok v { m with scopes := s } := by simp only [eval, hr]
    exact ends_of_ok hrun ⟨v, { n with scopes := s }, by simp only [eval, hq], rfl, rfl, hk⟩
  | error t s =>
    obtain ⟨_, _, hq, ht, rfl⟩ := he.stop hr
    have hrun : eval e m = .error t { m with scopes := s } := by simp only [eval, hr]
    exact ends_of_error hrun ⟨_, { n with scopes := s }, by simp only [eval, hq], ht, rfl, hk⟩

lemma define_moved (name : String) (v : Value) :
    Agrees (Machine.AlikeUpTo S) Eq (Trouble.Moved f) (define name v) (define name v) :=
  ⟨fun _ _ h => ⟨(), _, rfl, rfl, congrArg (Scopes.define · name v) h.scopes, h.sink⟩⟩

lemma toSink_of_agrees {R : Machine δ → Machine δ → Prop} {E : Trouble → Trouble → Prop}
    (hS : ∀ m n, R m n → S m.sink n.sink)
    (hsink : ∀ m n s t, R m n → S s t → R { m with sink := s } { n with sink := t })
    {context : InternalFault.Context} (hE : ∀ reason, E (.internal (.within context (.refused reason)))
      (.internal (.within context (.refused reason)))) {request : EStateM String (Sink δ) Unit}
    (h : Agrees S Eq Eq request request) : Agrees R Eq E (toSink context request) (toSink context request) := by
  refine ⟨fun m n hmn => ?_⟩
  have hends := h.ends m.sink n.sink (hS m n hmn)
  cases hr : request m.sink with
  | ok _ s =>
    obtain ⟨_, t, hq, -, hst⟩ := hends.ok hr
    exact ends_of_ok (toSink_ok hr) ⟨(), _, toSink_ok hq, rfl, hsink m n s t hmn hst⟩
  | error reason s =>
    obtain ⟨_, t, hq, rfl, hst⟩ := hends.stop hr
    exact ends_of_error (toSink_error hr) ⟨_, _, toSink_error hq, hE reason, hsink m n s t hmn hst⟩

lemma toSink_moved {request : EStateM String (Sink δ) Unit} (h : Agrees S Eq Eq request request)
    (context : InternalFault.Context) :
    Agrees (Machine.AlikeUpTo S) Eq (Trouble.Moved f) (toSink context request) (toSink context request) :=
  toSink_of_agrees (R := Machine.AlikeUpTo S) (E := Trouble.Moved f) (fun _ _ h => h.sink)
    (fun _ _ _ _ hm hs => ⟨hm.scopes, hs⟩) (fun _ => rfl) h

lemma inScope_moved {body body' : Exec δ Unit} (h : Agrees (Machine.AlikeUpTo S) Eq (Trouble.Moved f) body body') :
    Agrees (Machine.AlikeUpTo S) Eq (Trouble.Moved f) (inScope body) (inScope body') := by
  refine ⟨?_⟩
  rintro m n ⟨hs, hk⟩
  have hleave {m' n' : Machine δ} (hm : m'.AlikeUpTo S n') :
      (m'.leaveScope m.scopes.current).AlikeUpTo S (n'.leaveScope n.scopes.current) :=
    ⟨by simp only [Machine.scopes_leaveScope, hm.scopes, hs], hm.sink⟩
  have hb := h.ends m.enterScope n.enterScope ⟨congrArg Scopes.push hs, hk⟩
  cases hr : body m.enterScope with
  | ok _ m' =>
    obtain ⟨_, n', hq, -, hm⟩ := hb.ok hr
    have hrun : inScope body m = .ok () (m'.leaveScope m.scopes.current) := by simp only [inScope, hr]
    exact ends_of_ok hrun ⟨(), _, by simp only [inScope, hq], rfl, hleave hm⟩
  | error t m' =>
    obtain ⟨_, n', hq, ht, hm⟩ := hb.stop hr
    have hrun : inScope body m = .error t (m'.leaveScope m.scopes.current) := by simp only [inScope, hr]
    exact ends_of_error hrun ⟨_, _, by simp only [inScope, hq], ht, hleave hm⟩

end Exec

namespace Stmt

variable [Device δ]

mutual

lemma exec_moved (hS : Sink.AnswersAlike S) : ∀ s : Stmt,
    Agrees (Machine.AlikeUpTo S) Eq (Trouble.Moved f) s.exec (s.mapLine f).exec
  | .block body => by
    rw [mapLine, exec, exec]
    exact Exec.inScope_moved (execAll_moved hS body)
  | .expression e => by
    rw [mapLine, exec, exec]
    exact (Exec.eval_moved e).bind fun _ _ _ => .pure rfl
  | .print e => by
    rw [mapLine, exec, exec]
    refine (Exec.eval_moved e).bind ?_
    rintro v _ rfl
    exact Exec.toSink_moved (hS.write _) _
  | .var name none => by
    rw [mapLine, Option.map_none, exec, exec]
    exact Exec.define_moved name.lexeme .nil
  | .var name (some e) => by
    rw [mapLine, Option.map_some, exec, exec]
    refine (Exec.eval_moved e).bind ?_
    rintro v _ rfl
    exact Exec.define_moved name.lexeme v

lemma execAll_moved (hS : Sink.AnswersAlike S) : ∀ body : List Stmt,
    Agrees (Machine.AlikeUpTo S) Eq (Trouble.Moved f) (execAll body) (execAll (mapLineEach f body))
  | [] => by
    rw [mapLineEach, execAll]
    exact .pure rfl
  | s :: rest => by
    rw [mapLineEach, execAll, execAll]
    exact (Exec.note_moved _ _).bind fun _ _ _ => (exec_moved hS s).bind fun _ _ _ => execAll_moved hS rest

end

end Stmt

variable [Device δ]

lemma interpret_moved (statements : List Stmt) :
    Agrees (Machine.Alike (δ := δ)) Eq (Trouble.Moved f) (interpret statements)
      (interpret (Stmt.mapLineEach f statements)) :=
  (Exec.note_moved _ _).bind fun _ _ _ => (Stmt.execAll_moved Sink.answersAlike_eq statements).bind fun _ _ _ =>
    Exec.toSink_moved Sink.answersAlike_eq.flush _

lemma Trouble.moved_id : Trouble.Moved id = Eq := by
  funext t u
  rw [Trouble.Moved, t.mapLine_id]
  exact propext eq_comm

lemma Stmt.execAll_alike (body : List Stmt) :
    Agrees (Machine.Alike (δ := δ)) Eq Eq (execAll body) (execAll body) := by
  have h := execAll_moved (f := id) (Sink.answersAlike_eq (δ := δ)) body
  rwa [Stmt.mapLineEach_id, Trouble.moved_id] at h

lemma interpret_alike (statements : List Stmt) :
    Agrees (Machine.Alike (δ := δ)) Eq Eq (interpret statements) (interpret statements) := by
  have h := interpret_moved (δ := δ) (f := id) statements
  rwa [Stmt.mapLineEach_id, Trouble.moved_id] at h

end Lox
