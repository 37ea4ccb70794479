import Lox.Machine
import Lox.Proofs.Agreement
import Lox.Proofs.Grammar

/-! What can stop a running program. A tree that the grammar derives has only operators that evaluation knows, so a
sink that takes everything leaves only runtime faults. -/

namespace Lox

def Trouble.IsRuntime (t : Trouble) : Prop :=
  ∃ fault, t = .runtime fault

section Devices

variable {δ : Type} [Device δ]

inductive Device.Later (d : δ) : δ → Prop
  | refl : Later d d
  | write {e : δ} (bytes : ByteArray) : Later d e → Later d (Device.write e bytes).2
  | flush {e : δ} : Later d e → Later d (Device.flush e).2

lemma Device.Later.trans {d e k : δ} (h : Later d e) (hk : Later e k) : Later d k := by
  induction hk with
  | refl => exact h
  | write bytes _ ih => exact .write bytes ih
  | flush _ ih => exact .flush ih

namespace Sink

def Reliable (s : Sink δ) : Prop :=
  ∀ d, Device.Later s.device d → (∀ bytes, (Device.write d bytes).1 = .taken) ∧ (Device.flush d).1 = none

lemma Reliable.exists_write {s : Sink δ} (hs : s.Reliable) (bytes : ByteArray) :
    ∃ t, write bytes s = .ok () t ∧ t.Reliable ∧ t.written = s.written ++ bytes := by
  have htaken := (hs s.device .refl).1 bytes
  have hlater := Device.Later.write bytes (.refl (d := s.device))
  unfold write
  cases hw : Device.write s.device bytes with
  | mk reply device =>
    rw [hw] at htaken hlater
    obtain rfl : reply = .taken := htaken
    exact ⟨_, rfl, fun d hd => hs d (hlater.trans hd), rfl⟩

lemma Reliable.exists_flush {s : Sink δ} (hs : s.Reliable) :
    ∃ t, flush s = .ok () t ∧ t.Reliable ∧ t.written = s.written := by
  have hnone := (hs s.device .refl).2
  have hlater := Device.Later.flush (.refl (d := s.device))
  unfold flush
  cases hf : Device.flush s.device with
  | mk reason device =>
    rw [hf] at hnone hlater
    obtain rfl : reason = none := hnone
    exact ⟨_, rfl, fun d hd => hs d (hlater.trans hd), rfl⟩

lemma reliable_unlimited : unlimited.Reliable := by
  intro d hd
  have hsame : d = unlimited.device := by
    induction hd with
    | refl => rfl
    | write bytes _ ih =>
      rw [ih]
      rfl
    | flush _ ih =>
      rw [ih]
      rfl
  rw [hsame]
  exact ⟨fun _ => rfl, rfl⟩

end Sink

end Devices

lemma applyUnary_error {op : Token} {v : Value} {t : Trouble} (hop : isUnaryOperator op.kind = true)
    (h : applyUnary op v = .error t) : t.IsRuntime := by
  unfold applyUnary at h
  split at h
  · split at h <;> cases h
    exact ⟨_, rfl⟩
  · cases h
  · simp_all [isUnaryOperator]

lemma exists_applyNumeric {tier : Tier} {op : Token} (hop : tier.isOperator op.kind = true)
    (hplus : op.kind ≠ .symbol .plus) (heq : op.kind ≠ .symbol .equalEqual) (hne : op.kind ≠ .symbol .bangEqual)
    (x y : Float) : ∃ v, applyNumeric op x y = .ok v := by
  obtain ⟨kind, lexeme, line⟩ := op
  cases kind with
  | symbol s =>
    cases s with
    | minus | star | slash | greater | greaterEqual | less | lessEqual => exact ⟨_, rfl⟩
    | plus => exact absurd rfl hplus
    | equalEqual => exact absurd rfl heq
    | bangEqual => exact absurd rfl hne
    | _ => cases tier <;> cases hop
  | _ => cases hop

lemma applyBinary_error {tier : Tier} {op : Token} {a b : Value} {t : Trouble} (hop : tier.isOperator op.kind = true)
    (h : applyBinary op a b = .error t) : t.IsRuntime := by
  unfold applyBinary at h
  split at h
  · split at h <;> cases h
    exact ⟨_, rfl⟩
  · cases h
  · cases h
  · rename_i hplus heq hne
    split at h
    · obtain ⟨v, hv⟩ := exists_applyNumeric hop hplus heq hne _ _
      rw [hv] at h
      cases h
    · cases h
      exact ⟨_, rfl⟩

namespace Eval

variable {stop : Trouble → Prop}

abbrev StopsBy (p : Eval Value) (stop : Trouble → Prop) : Prop :=
  Keeps (fun _ => True) p (fun _ => True) stop

lemma read_stopsBy (name : Token) : (read name).StopsBy Trouble.IsRuntime := by
  refine ⟨fun s _ => ?_⟩
  unfold Ends read
  cases s.get? name.lexeme with
  | some v => exact ⟨trivial, trivial⟩
  | none => exact ⟨trivial, _, rfl⟩

lemma assign_keeps (name : Token) (v : Value) :
    Keeps (fun _ => True) (assign name v) (fun _ => True) Trouble.IsRuntime := by
  refine ⟨fun s _ => ?_⟩
  unfold Ends assign
  cases s.assign? name.lexeme v with
  | some s => exact ⟨trivial, trivial⟩
  | none => exact ⟨trivial, _, rfl⟩

lemma ofExcept_stopsBy {r : Except Trouble Value} (h : ∀ t, r = .error t → stop t) : (ofExcept r).StopsBy stop := by
  refine ⟨fun s _ => ?_⟩
  unfold Ends ofExcept
  cases r with
  | ok a => exact ⟨trivial, trivial⟩
  | error t => exact ⟨trivial, h t rfl⟩

end Eval

lemma Expr.Derives.eval_stopsBy {rule : Rule} {d : ℕ} {e : Expr} (h : e.Derives rule d) :
    e.eval.StopsBy Trouble.IsRuntime := by
  induction h with
  | literal v => exact .pure trivial
  | @name d t _ => exact Eval.read_stopsBy t
  | group _ _ ih => exact ih
  | primary _ ih | first _ _ ih | level _ ih | equality _ ih => exact ih
  | @unary d op e hop _ _ ih =>
    rw [Expr.eval]
    exact ih.bind fun v _ => Eval.ofExcept_stopsBy fun t => applyUnary_error hop
  | @link tier d k left right op _ hop _ _ ihl ihr =>
    rw [Expr.eval]
    exact ihl.bind fun a _ => ihr.bind fun b _ => Eval.ofExcept_stopsBy fun t => applyBinary_error hop
  | @assign d name value _ _ _ ih =>
    rw [Expr.eval]
    exact ih.bind fun v _ => (Eval.assign_keeps name v).bind fun _ _ => .pure trivial

lemma Expr.eval_stopsBy_any (e : Expr) : e.eval.StopsBy fun _ => True := by
  refine ⟨fun scopes _ => ?_⟩
  unfold Ends
  split <;> exact ⟨trivial, trivial⟩

variable {δ : Type}

namespace Exec

variable {α : Type} {P : Sink δ → Prop} {stop : Trouble → Prop}

abbrev KeepsSink (P : Sink δ → Prop) (p : Exec δ α) (stop : Trouble → Prop) : Prop :=
  Keeps (fun m => P m.sink) p (fun _ => True) stop

abbrev StopsBy [Device δ] (p : Exec δ α) (stop : Trouble → Prop) : Prop :=
  Keeps (fun m => m.sink.Reliable) p (fun _ => True) stop

lemma eval_keepsSink {e : Expr} (h : e.eval.StopsBy stop) : KeepsSink P (eval e) stop := by
  refine ⟨fun m hm => ?_⟩
  have he := h.ends m.scopes trivial
  unfold Ends eval
  cases hr : e.eval m.scopes with
  | ok v scopes => exact ⟨hm, trivial⟩
  | error t scopes => exact ⟨hm, (he.stop hr).2⟩

lemma toSink_keepsSink {context : InternalFault.Context} {request : EStateM String (Sink δ) Unit}
    (h : Keeps P request (fun _ => True) fun reason => stop (.internal (.within context (.refused reason)))) :
    KeepsSink P (toSink context request) stop := by
  refine ⟨fun m hm => ?_⟩
  have hr := h.ends m.sink hm
  cases hq : request m.sink with
  | ok _ sink => exact ends_of_ok (toSink_ok hq) (hr.ok hq)
  | error reason sink => exact ends_of_error (toSink_error hq) (hr.stop hq)

lemma printLine_stopsBy [Device δ] (line : String) : (printLine line : Exec δ Unit).StopsBy stop := by
  refine toSink_keepsSink ⟨fun s hs => ?_⟩
  obtain ⟨t, hwrite, ht, -⟩ := hs.exists_write (line ++ "\n").toUTF8
  exact ends_of_ok hwrite ⟨ht, trivial⟩

lemma flush_stopsBy [Device δ] : (flush : Exec δ Unit).StopsBy stop := by
  refine toSink_keepsSink ⟨fun s hs => ?_⟩
  obtain ⟨t, hflush, ht, -⟩ := hs.exists_flush
  exact ends_of_ok hflush ⟨ht, trivial⟩

lemma inScope_keepsSink {body : Exec δ Unit} (h : KeepsSink P body stop) : KeepsSink P (inScope body) stop := by
  refine ⟨fun m hm => ?_⟩
  have hb := h.ends m.enterScope hm
  unfold Ends inScope
  cases hr : body m.enterScope with
  | ok _ m' => exact ⟨(hb.ok hr).1, trivial⟩
  | error t m' => exact ⟨(hb.stop hr).1, (hb.stop hr).2⟩

end Exec

namespace Stmt

inductive Each (P : Expr → Prop) : Stmt → Prop
  | block {body : List Stmt} : (∀ s ∈ body, Each P s) → Each P (.block body)
  | expression {e : Expr} : P e → Each P (.expression e)
  | print {e : Expr} : P e → Each P (.print e)
  | var {name : Token} {init : Option Expr} : (∀ e ∈ init, P e) → Each P (.var name init)

lemma each_of_forall {P : Expr → Prop} (h : ∀ e, P e) : ∀ s : Stmt, s.Each P
  | .block body => .block fun s _ => each_of_forall h s
  | .expression e => .expression (h e)
  | .print e => .print (h e)
  | .var _ _ => .var fun e _ => h e

lemma Derives.each {P : Expr → Prop} (hP : ∀ d e, e.Derives .assignment d → P e) {d : ℕ} {s : Stmt}
    (h : s.Derives d) : s.Each P := by
  induction h with
  | block _ _ ih => exact .block ih
  | expression h => exact .expression (hP _ _ h)
  | print h => exact .print (hP _ _ h)
  | var _ h => exact .var fun e he => hP _ e (h e he)

variable [Device δ] {P : Sink δ → Prop} {stop : Trouble → Prop}

lemma execAll_keepsSink {body : List Stmt} (h : ∀ s ∈ body, Exec.KeepsSink P s.exec stop) :
    Exec.KeepsSink P (execAll body) stop := by
  induction body with
  | nil =>
    rw [execAll]
    exact .pure trivial
  | cons s body ih =>
    have hnote : Exec.KeepsSink P (Exec.note (.executing s)) stop := ⟨fun _ hm => ⟨hm, trivial⟩⟩
    rw [execAll]
    exact hnote.bind fun _ _ => (h s (.head _)).bind fun _ _ => ih fun x hx => h x (.tail _ hx)

lemma Each.exec_keepsSink (hprint : ∀ line, Exec.KeepsSink P (Exec.printLine line) stop) {s : Stmt}
    (h : s.Each (·.eval.StopsBy stop)) : Exec.KeepsSink P s.exec stop := by
  induction h with
  | block _ ih =>
    rw [Stmt.exec]
    exact Exec.inScope_keepsSink (execAll_keepsSink ih)
  | expression h =>
    rw [Stmt.exec]
    exact (Exec.eval_keepsSink h).bind fun _ _ => .pure trivial
  | print h =>
    rw [Stmt.exec]
    exact (Exec.eval_keepsSink h).bind fun v _ => hprint v.render
  | @var name init h =>
    have hdefine (v : Value) : Exec.KeepsSink P (Exec.define name.lexeme v) stop := ⟨fun _ hm => ⟨hm, trivial⟩⟩
    cases init with
    | none =>
      have hnil : Exec.KeepsSink P (pure .nil : Exec δ Value) stop := .pure trivial
      rw [Stmt.exec]
      exact hnil.bind fun v _ => hdefine v
    | some e =>
      rw [Stmt.exec]
      exact (Exec.eval_keepsSink (h e rfl)).bind fun v _ => hdefine v

lemma execAll_stopsBy {body : List Stmt} (h : ∀ s ∈ body, s.Each (·.eval.StopsBy stop)) :
    (execAll body : Exec δ Unit).StopsBy stop :=
  execAll_keepsSink fun s hs => (h s hs).exec_keepsSink Exec.printLine_stopsBy

end Stmt

variable [Device δ]

lemma interpret_keepsSink {P : Sink δ → Prop} {stop : Trouble → Prop} {statements : List Stmt}
    (hprint : ∀ line, Exec.KeepsSink P (Exec.printLine line) stop) (hflush : Exec.KeepsSink P Exec.flush stop)
    (h : ∀ s ∈ statements, s.Each (·.eval.StopsBy stop)) : Exec.KeepsSink P (interpret statements) stop := by
  have hnote : Exec.KeepsSink P (Exec.note (.interpreting statements.length)) stop := ⟨fun _ hm => ⟨hm, trivial⟩⟩
  have hall := Stmt.execAll_keepsSink fun s hs => (h s hs).exec_keepsSink hprint
  exact hnote.bind fun _ _ => hall.bind fun _ _ => hflush

lemma interpret_stopsBy {stop : Trouble → Prop} {statements : List Stmt}
    (h : ∀ s ∈ statements, s.Each (·.eval.StopsBy stop)) : (interpret statements : Exec δ Unit).StopsBy stop :=
  interpret_keepsSink Exec.printLine_stopsBy Exec.flush_stopsBy h

end Lox
