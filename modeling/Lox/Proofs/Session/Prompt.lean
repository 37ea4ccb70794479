import Lox.Proofs.Session.Accounting

/-! The prompt runs the lines of its input one after the other, whatever faults occur. A line that does not compile
leaves nothing behind, so the other lines end as if it were not there. -/

namespace Lox

namespace Prompt

/-- Bytes cut behind each newline. What stands behind the last newline is a line too. -/
inductive CutsInto : List UInt8 → List (List UInt8) → Prop
  | nil : CutsInto [] []
  | last {l : List UInt8} : l ≠ [] → 10 ∉ l → CutsInto l [l]
  | line {l rest : List UInt8} {ls : List (List UInt8)} : 10 ∉ l → CutsInto rest ls →
      CutsInto (l ++ 10 :: rest) ((l ++ [10]) :: ls)

variable {input : List UInt8} {ls : List (List UInt8)}

lemma exists_cutsInto (input : List UInt8) : ∃ ls, CutsInto input ls := by
  induction input with
  | nil => exact ⟨[], .nil⟩
  | cons b input ih =>
    obtain ⟨ls, h⟩ := ih
    by_cases hb : b = 10
    · subst hb
      exact ⟨[10] :: ls, .line (l := []) (by simp) h⟩
    · have hcons {l : List UInt8} (hl : 10 ∉ l) : 10 ∉ b :: l := by simp [hl, Ne.symm hb]
      cases h with
      | nil => exact ⟨[[b]], .last (by simp) (hcons (by simp))⟩
      | last _ hl => exact ⟨[b :: input], .last (by simp) (hcons hl)⟩
      | @line l _ ls hl h => exact ⟨(b :: l ++ [10]) :: ls, .line (hcons hl) h⟩

lemma splitOnto_last {l : List UInt8} (hl : 10 ∉ l) (done : List (List UInt8)) (line : List UInt8)
    (hne : line.reverse ++ l ≠ []) : splitOnto done line l = (line.reverse ++ l) :: done := by
  induction l generalizing line with
  | nil =>
    rw [splitOnto, if_neg (by simpa using hne), List.append_nil]
  | cons b l ih =>
    have hb : b ≠ 10 := fun h => hl (h ▸ .head _)
    rw [splitOnto, if_neg hb, ih (fun h => hl (.tail _ h)) (b :: line) (by simp)]
    simp

lemma splitOnto_line {l : List UInt8} (hl : 10 ∉ l) (done : List (List UInt8)) (line rest : List UInt8) :
    splitOnto done line (l ++ 10 :: rest) = splitOnto ((line.reverse ++ l ++ [10]) :: done) [] rest := by
  induction l generalizing line with
  | nil => simp [splitOnto]
  | cons b l ih =>
    have hb : b ≠ 10 := fun h => hl (h ▸ .head _)
    rw [List.cons_append, splitOnto, if_neg hb, ih (fun h => hl (.tail _ h)) (b :: line)]
    simp

lemma CutsInto.splitOnto_eq (h : CutsInto input ls) (done : List (List UInt8)) :
    splitOnto done [] input = ls.reverse ++ done := by
  induction h generalizing done with
  | nil => rfl
  | last hne hl => exact splitOnto_last hl done [] hne
  | line hl _ ih => simp [splitOnto_line hl, ih]

lemma CutsInto.lines_eq (h : CutsInto input ls) : lines input = ls := by
  rw [lines, h.splitOnto_eq, List.append_nil, List.reverse_reverse]

lemma CutsInto.ne_nil (h : CutsInto input ls) : ∀ l ∈ ls, l ≠ [] := by
  induction h with
  | nil => simp
  | last hne _ => simpa using hne
  | line _ _ ih => simpa using ih

lemma cutsInto_iff : CutsInto input ls ↔ ls = lines input := by
  obtain ⟨ls', h⟩ := exists_cutsInto input
  rw [h.lines_eq]
  refine ⟨fun h' => ?_, fun hls => hls ▸ h⟩
  rw [← h'.lines_eq, h.lines_eq]

def kept {α : Type} (keep : ℕ → Bool) : List α → List α
  | [] => []
  | x :: xs => if keep 0 then x :: kept (fun i => keep (i + 1)) xs else kept (fun i => keep (i + 1)) xs

lemma CutsInto.kept (h : CutsInto input ls) (keep : ℕ → Bool) :
    CutsInto (kept keep ls).flatten (kept keep ls) := by
  induction h generalizing keep with
  | nil => exact .nil
  | last hne hl =>
    by_cases hk : keep 0 = true
    · simpa [Prompt.kept, hk] using .last hne hl
    · simpa [Prompt.kept, hk] using .nil
  | line hl _ ih =>
    have hrest := ih fun i => keep (i + 1)
    by_cases hk : keep 0 = true
    · simpa [Prompt.kept, hk] using .line hl hrest
    · simpa [Prompt.kept, hk] using hrest

def unit? (line : List UInt8) : Option String :=
  (String.fromUTF8? ⟨line.toArray⟩).map fun text => String.ofList (Text.trim text.toList)

end Prompt

variable {δ : Type}

def Sink.Extends (base sink : Sink δ) : Prop :=
  ∃ out, sink.written = base.written ++ out

section

variable [Device δ]

lemma Sink.write_extends (base : Sink δ) (bytes : ByteArray) :
    Keeps base.Extends (write bytes) (fun _ => True) fun _ => True := by
  refine ⟨?_⟩
  rintro s ⟨out, hout⟩
  unfold Ends write
  cases Device.write s.device bytes with
  | mk reply device =>
    cases reply with
    | taken => exact ⟨⟨out ++ bytes, by rw [hout, ByteArray.append_assoc]⟩, trivial⟩
    | refused count reason =>
      exact ⟨⟨out ++ bytes.extract 0 count, by rw [hout, ByteArray.append_assoc]⟩, trivial⟩

lemma Sink.flush_extends (base : Sink δ) : Keeps base.Extends flush (fun _ => True) fun _ => True := by
  refine ⟨fun s hs => ?_⟩
  unfold Ends flush
  cases Device.flush s.device with
  | mk reason device => cases reason <;> exact ⟨hs, trivial⟩

lemma extends_interpret (statements : List Stmt) (m : Machine δ) :
    m.sink.Extends (stateAfter (interpret statements) m).sink := by
  have hkeeps : Exec.KeepsSink m.sink.Extends (interpret statements) fun _ => True :=
    interpret_keepsSink (fun _ => Exec.toSink_keepsSink (m.sink.write_extends _))
      (Exec.toSink_keepsSink m.sink.flush_extends) fun s _ => Stmt.each_of_forall Expr.eval_stopsBy_any s
  have hstart : m.sink.Extends m.sink := ⟨.empty, ByteArray.append_empty.symm⟩
  exact ((hkeeps.ends m hstart).mono (fun _ _ h => h.1) fun _ _ h => h.1).stateAfter

end

namespace Session

variable {s s' : Session δ} {source : String}

lemma Action.after_eq {α : Type} (p : Action δ α) (s : Session δ) : p.after s = stateAfter p s := by
  rw [Action.after, stateAfter]
  cases p s <;> rfl

lemma extends_run [Device δ] (source : String) (s : Session δ) :
    s.machine.sink.Extends ((run source).after s).machine.sink := by
  obtain ⟨parsed, hp⟩ := exists_parsed source
  rw [Action.after_eq, stateAfter]
  cases hf : (s.compiled source parsed).unitFailure? with
  | some failure =>
    rw [run_eq_error hp hf]
    exact ⟨.empty, ByteArray.append_empty.symm⟩
  | none =>
    have hextends := extends_interpret parsed.statements (s.compiled source parsed).machine
    rw [← machine_interpret] at hextends
    rw [run_eq_interpret hp hf]
    exact hextends

structure Parallel (base base' : Array Diagnostic) (s s' : Session δ) : Prop where
  machine : s.machine.Alike s'.machine
  reported : ∃ new : List Diagnostic, s.reported = base ++ new ∧ s'.reported = base' ++ new

lemma parallel_compiled (source : String) (parsed : Parsed) (h : s.machine.Alike s'.machine) :
    Parallel s.reported s'.reported (s.compiled source parsed) (s'.compiled source parsed) where
  machine := ((alike_compiled source parsed s).symm.trans h).trans (alike_compiled source parsed s')
  reported := ⟨_, appendList_append _ _ _, appendList_append _ _ _⟩

variable [Device δ]

lemma interpret_parallel {base base' : Array Diagnostic} (statements : List Stmt) :
    Agrees (Parallel (δ := δ) base base') Eq Eq (interpret statements) (interpret statements) := by
  refine ⟨fun s s' h => ?_⟩
  obtain ⟨hm, new, hs, hs'⟩ := h
  have hi := run_interpret statements s
  have hi' := run_interpret statements s'
  have halike := (interpret_alike statements).ends s.machine s'.machine hm
  cases hr : Lox.interpret statements s.machine with
  | ok _ m =>
    obtain ⟨_, m', hr', -, hm'⟩ := halike.ok hr
    exact ends_of_ok (hi.ok hr) ⟨_, _, hi'.ok hr', rfl, hm', new, hs, hs'⟩
  | error t m =>
    obtain ⟨_, m', hr', rfl, hm'⟩ := halike.stop hr
    refine ends_of_error (hi.stop hr) ⟨_, _, hi'.stop hr', rfl, hm', new ++ t.diagnostics, ?_, ?_⟩
    · simp only [hs, appendList_append]
    · simp only [hs', appendList_append]

lemma run_parallel (source : String) (h : s.machine.Alike s'.machine) :
    (run source).failure? s = (run source).failure? s' ∧
      Parallel s.reported s'.reported ((run source).after s) ((run source).after s') := by
  obtain ⟨parsed, hp⟩ := exists_parsed source
  have hcompiled := parallel_compiled source parsed h
  -- The faults of a unit do not depend on the session.
  have hsame : (s'.compiled source parsed).unitFailure? = (s.compiled source parsed).unitFailure? := rfl
  rw [Action.failure?, Action.failure?, Action.after, Action.after]
  cases hf : (s.compiled source parsed).unitFailure? with
  | some failure =>
    rw [run_eq_error hp hf, run_eq_error hp (hsame.trans hf)]
    exact ⟨rfl, hcompiled⟩
  | none =>
    have hi := (interpret_parallel parsed.statements).ends _ _ hcompiled
    rw [run_eq_interpret hp hf, run_eq_interpret hp (hsame.trans hf)]
    cases hr : interpret parsed.statements (s.compiled source parsed) with
    | ok _ t =>
      obtain ⟨_, t', hr', -, ht⟩ := hi.ok hr
      rw [hr']
      exact ⟨rfl, ht⟩
    | error failure t =>
      obtain ⟨_, t', hr', rfl, ht⟩ := hi.stop hr
      rw [hr']
      exact ⟨rfl, ht⟩

def Faulty (source : String) : Prop :=
  ∃ result, Lox.scan source = .ok result ∧
    (result.faults ≠ [] ∨ ∃ parsed, Parsed.ofTokens result.tokens = .ok parsed ∧ parsed.faults ≠ [])

lemma Faulty.run_still (h : Faulty source) (s : Session δ) :
    s.machine.Alike ((run source).after s).machine ∧
      ∀ fault, (run source).failure? s ≠ some (.internal fault) := by
  obtain ⟨parsed, hp⟩ := exists_parsed source
  obtain ⟨result, hscan, h⟩ := h
  obtain rfl := Except.ok.inj ((scan_eq source).symm.trans hscan)
  have hcount : 0 < (scanned source).faults.length + parsed.faults.length := by
    rcases h with hl | ⟨parsed', hp', hs⟩
    · have hl := List.length_pos_of_ne_nil hl
      omega
    · cases hp.symm.trans hp'
      have hs := List.length_pos_of_ne_nil hs
      omega
  have hfails : (s.compiled source parsed).unitFailure? = _ := unitFailure?_eq hcount
  have hcode := exitCode_unitFailure? hfails
  rw [Action.after, Action.failure?, run_eq_error hp hfails]
  refine ⟨alike_compiled source parsed s, fun fault hfault => ?_⟩
  rw [Option.some.inj hfault] at hcode
  cases hcode

end Session

namespace Turn

variable [Device δ] {turn turn' : Turn} {source : String} {s s' : Session δ}

structure Tells (turn : Turn) (source : String) (s : Session δ) : Prop where
  printed : ((Session.run source).after s).machine.sink.written = s.machine.sink.written ++ turn.printed
  reported : ((Session.run source).after s).reported = s.reported ++ turn.reported
  fault : ∀ fault, turn.fault = some fault ↔ (Session.run source).failure? s = some (.internal fault)

lemma take_adds (s : Session δ) (line : String) :
    (take s line).1.printed = (take s line).2.machine.sink.written.extract s.machine.sink.written.size
        (take s line).2.machine.sink.written.size ∧
      (take s line).1.reported = ((take s line).2.reported.extract s.reported.size).toList := by
  unfold take
  cases Session.run (String.ofList (Text.trim line.toList)) s with
  | ok _ t => exact ⟨rfl, rfl⟩
  | error failure t => cases failure <;> exact ⟨rfl, rfl⟩

lemma take_tells (s : Session δ) (line : String) : (take s line).1.Tells (String.ofList (Text.trim line.toList)) s := by
  obtain ⟨out, hout⟩ := Session.extends_run (String.ofList (Text.trim line.toList)) s
  obtain ⟨new, hnew⟩ := Session.exists_run_reports (String.ofList (Text.trim line.toList)) s
  obtain ⟨hprinted, hreported⟩ := take_adds s line
  rw [Session.take_eq_after] at hprinted hreported
  refine ⟨?_, ?_, fun fault => ?_⟩
  · rw [hprinted, hout, ByteArray.extract_append_eq_right rfl ByteArray.size_append]
  · rw [hreported, hnew.reported]
    have hsize : (s.reported ++ new).size = s.reported.size + new.length := by simp [← Array.length_toList]
    simp [hsize]
  · unfold take Session.Action.failure?
    cases Session.run (String.ofList (Text.trim line.toList)) s with
    | ok _ t => simp
    | error failure t => cases failure <;> simp

lemma Tells.eq_of_alike (h : turn.Tells source s) (h' : turn'.Tells source s') (hs : s.machine.Alike s'.machine) :
    turn = turn' := by
  obtain ⟨hfailure, hmachine, new, hnew, hnew'⟩ := Session.run_parallel source hs
  have hprinted : turn.printed = turn'.printed := by
    apply (ByteArray.append_right_inj s.machine.sink.written).mp
    rw [← h.printed, hmachine.sink, h'.printed, hs.sink]
  have hreported {t : Session δ} {told : Turn} (ht : told.Tells source t)
      (hadds : ((Session.run source).after t).reported = t.reported ++ new) : told.reported = new := by
    have htoList := congrArg Array.toList (ht.reported.symm.trans hadds)
    simpa using htoList
  have hfault : turn.fault = turn'.fault := by
    apply Option.ext
    intro fault
    rw [h.fault, h'.fault, hfailure]
  obtain ⟨printed, reported, fault⟩ := turn
  obtain ⟨printed', reported', fault'⟩ := turn'
  cases hprinted
  cases hfault
  cases (hreported h hnew).trans (hreported h' hnew').symm
  rfl

lemma Tells.quiet_of_faulty (h : turn.Tells source s) (hfaulty : Session.Faulty source) :
    turn.printed = .empty ∧ turn.fault = none := by
  obtain ⟨halike, hnone⟩ := hfaulty.run_still s
  constructor
  · apply (ByteArray.append_right_inj s.machine.sink.written).mp
    rw [← h.printed, ByteArray.append_empty, halike.sink]
  · cases hf : turn.fault with
    | none => rfl
    | some fault => exact absurd ((h.fault fault).mp hf) (hnone fault)

end Turn

namespace Prompt

variable [Device δ]

inductive Ran : Session δ → List String → List Turn → Session δ → Prop
  | nil (s : Session δ) : Ran s [] [] s
  | cons {s t : Session δ} {source : String} {units : List String} {turn : Turn} {turns : List Turn} :
      turn.Tells source s → Ran ((Session.run source).after s) units turns t →
      Ran s (source :: units) (turn :: turns) t

lemma Ran.length_eq {s t : Session δ} {units : List String} {turns : List Turn} (h : Ran s units turns t) :
    turns.length = units.length := by
  induction h with
  | nil s => rfl
  | cons _ _ ih => rw [List.length_cons, List.length_cons, ih]

lemma exists_text_of_unit? {line : List UInt8} {source : String} (h : unit? line = some source) :
    ∃ text, String.fromUTF8? ⟨line.toArray⟩ = some text ∧ String.ofList (Text.trim text.toList) = source :=
  Option.map_eq_some_iff.mp h

lemma step_text {line : List UInt8} {text : String} (hne : line ≠ [])
    (h : String.fromUTF8? ⟨line.toArray⟩ = some text) (s : Session δ) :
    step s ⟨line.toArray⟩ = .turn (Turn.take s text).1 (Turn.take s text).2 := by
  simp [step, ByteArray.isEmpty, ByteArray.size, hne, h]

lemma step_unreadable {line : List UInt8} (hne : line ≠ []) (h : String.fromUTF8? ⟨line.toArray⟩ = none)
    (s : Session δ) : step s ⟨line.toArray⟩ = .unreadable := by
  simp [step, ByteArray.isEmpty, ByteArray.size, hne, h]

lemma runOnto_end (done : List Turn) (s : Session δ) : runOnto done s [[]] = ⟨done.reverse, true, s⟩ :=
  rfl

lemma exists_ran {front : List (List UInt8)} {units : List String} (hne : ∀ l ∈ front, l ≠ [])
    (h : front.map unit? = units.map some) (s : Session δ) (rest : List (List UInt8)) :
    ∃ turns t, Ran s units turns t ∧
      ∀ done, runOnto done s (front ++ rest) = runOnto (turns.reverse ++ done) t rest := by
  induction front generalizing units s with
  | nil =>
    obtain rfl : units = [] := by simpa using h.symm
    exact ⟨[], s, .nil s, fun _ => rfl⟩
  | cons line front ih =>
    obtain ⟨source, units, rfl⟩ := List.exists_cons_of_ne_nil (fun hn : units = [] => by simp [hn] at h)
    obtain ⟨hline, hfront⟩ := List.cons.inj h
    obtain ⟨text, htext, rfl⟩ := exists_text_of_unit? hline
    obtain ⟨turns, t, hran, hrun⟩ := ih (fun l hl => hne l (.tail _ hl)) hfront (Turn.take s text).2
    refine ⟨(Turn.take s text).1 :: turns, t, .cons (Turn.take_tells s text) (Session.take_eq_after s text ▸ hran), ?_⟩
    intro done
    rw [List.cons_append, runOnto, step_text (hne line (.head _)) htext]
    simp [hrun]

omit [Device δ] in
lemma prompts_eq (turns : List Turn) (isText : Bool) (t : Session δ) :
    (Transcript.mk turns isText t).prompts = String.join (List.replicate (turns.length + 1) text) ++
      if isText then farewell else "" := by
  simp [Transcript.prompts, Transcript.ending, List.replicate_succ', String.join]

lemma runOnto_eq (done : List Turn) (s : Session δ) (ls : List (List UInt8)) :
    runOnto done s ls =
      ⟨done.reverse ++ (runOnto [] s ls).turns, (runOnto [] s ls).isText, (runOnto [] s ls).session⟩ := by
  induction ls generalizing done s with
  | nil => simp [runOnto]
  | cons line ls ih =>
    rw [runOnto, runOnto]
    cases step s ⟨line.toArray⟩ with
    | farewell => simp
    | unreadable => simp
    | turn t s => simp [ih (_ :: done), ih [_]]

lemma runOnto_cons {line : List UInt8} {text : String} (hne : line ≠ [])
    (h : String.fromUTF8? ⟨line.toArray⟩ = some text) (s : Session δ) (ls : List (List UInt8)) :
    runOnto [] s (line :: ls) = ⟨(Turn.take s text).1 :: (runOnto [] (Turn.take s text).2 ls).turns,
      (runOnto [] (Turn.take s text).2 ls).isText, (runOnto [] (Turn.take s text).2 ls).session⟩ := by
  rw [runOnto, step_text hne h]
  exact runOnto_eq _ _ _

/-- `t'` is `t` without the turns that are not kept, and those printed nothing and ended in no internal fault. -/
structure Transcript.Without (keep : ℕ → Bool) (t t' : Transcript δ) : Prop where
  turns : t'.turns = kept keep t.turns
  isText : t'.isText = t.isText
  scopes : t'.session.machine.scopes = t.session.machine.scopes
  sink : t'.session.machine.sink = t.session.machine.sink
  quiet : ∀ (i : ℕ) (turn : Turn), t.turns[i]? = some turn → keep i = false →
    turn.printed = .empty ∧ turn.fault = none

def FaultyLine (line : List UInt8) : Prop :=
  ∃ source, unit? line = some source ∧ Session.Faulty source

lemma runOnto_without {keep : ℕ → Bool} {s s' : Session δ} (hne : ∀ l ∈ ls, l ≠ [])
    (hs : s.machine.Alike s'.machine)
    (hkeep : ∀ (i : ℕ) (line : List UInt8), ls[i]? = some line → keep i = false → FaultyLine line) :
    (runOnto [] s (ls ++ [[]])).Without keep (runOnto [] s' (kept keep ls ++ [[]])) := by
  induction ls generalizing keep s s' with
  | nil => exact ⟨rfl, rfl, hs.scopes.symm, hs.sink.symm, by simp [runOnto_end]⟩
  | cons line ls ih =>
    have hline := hne line (.head _)
    have hrestne : ∀ l ∈ ls, l ≠ [] := fun l hl => hne l (.tail _ hl)
    have htail (i : ℕ) (l : List UInt8) : ls[i]? = some l → keep (i + 1) = false → FaultyLine l := hkeep (i + 1) l
    cases hk : keep 0 with
    | true =>
      rw [kept, if_pos hk]
      cases htext : String.fromUTF8? ⟨line.toArray⟩ with
      | none =>
        rw [List.cons_append, List.cons_append, runOnto, runOnto, step_unreadable hline htext,
          step_unreadable hline htext]
        exact ⟨rfl, rfl, hs.scopes.symm, hs.sink.symm, by simp⟩
      | some text =>
        obtain ⟨-, hafter, -⟩ := Session.run_parallel (String.ofList (Text.trim text.toList)) hs
        rw [← Session.take_eq_after, ← Session.take_eq_after] at hafter
        have hturn := (Turn.take_tells s text).eq_of_alike (Turn.take_tells s' text) hs
        have hrest := ih hrestne hafter htail
        rw [List.cons_append, List.cons_append, runOnto_cons hline htext, runOnto_cons hline htext]
        refine ⟨?_, hrest.isText, hrest.scopes, hrest.sink, fun i turn hi hki => ?_⟩
        · rw [kept, if_pos hk, hrest.turns, hturn]
        · cases i with
          | zero => cases hk.symm.trans hki
          | succ i => exact hrest.quiet i turn hi hki
    | false =>
      obtain ⟨source, hunit, hfaulty⟩ := hkeep 0 line rfl hk
      obtain ⟨text, htext, rfl⟩ := exists_text_of_unit? hunit
      have hstill := (hfaulty.run_still s).1
      rw [← Session.take_eq_after] at hstill
      have hrest := ih hrestne (hstill.symm.trans hs) htail
      rw [kept, if_neg (by simp [hk]), List.cons_append, runOnto_cons hline htext]
      refine ⟨?_, hrest.isText, hrest.scopes, hrest.sink, fun i turn hi hki => ?_⟩
      · rw [kept, if_neg (by simp [hk]), hrest.turns]
      · cases i with
        | zero =>
          rw [List.getElem?_cons_zero] at hi
          rw [← Option.some.inj hi]
          exact (Turn.take_tells s text).quiet_of_faulty hfaulty
        | succ i => exact hrest.quiet i turn hi hki

theorem run_independent_of_faulty_lines (s : Session δ) (input : ByteArray) :
    ∃ ls, (∀ ls', CutsInto input.data.toList ls' ↔ ls' = ls) ∧
      (∀ units, ls.map unit? = units.map some →
        ∃ turns t, Ran s units turns t ∧ run s input = ⟨turns, true, t⟩ ∧
          (run s input).prompts = String.join (List.replicate (ls.length + 1) "> ") ++ "\nExited loxer repl\n") ∧
      (∀ front bad rest units, ls = front ++ bad :: rest → front.map unit? = units.map some → unit? bad = none →
        ∃ turns t, Ran s units turns t ∧ run s input = ⟨turns, false, t⟩ ∧
          (run s input).prompts = String.join (List.replicate (front.length + 1) "> ")) ∧
      ∀ (keep : ℕ → Bool) (input' : ByteArray),
        (∀ (i : ℕ) (line : List UInt8), ls[i]? = some line → keep i = false → FaultyLine line) →
        input'.data.toList = (kept keep ls).flatten → (run s input).Without keep (run s input') := by
  have hlines : CutsInto input.data.toList (lines input.data.toList) := cutsInto_iff.mpr rfl
  refine ⟨lines input.data.toList, fun _ => cutsInto_iff, ?_, ?_, ?_⟩
  · intro units hunits
    obtain ⟨turns, t, hran, hrun⟩ := exists_ran hlines.ne_nil hunits s [[]]
    have htranscript : run s input = ⟨turns, true, t⟩ := by
      rw [run, hrun, runOnto_end]
      simp
    have hlength : turns.length = (lines input.data.toList).length := by
      rw [hran.length_eq, ← List.length_map (f := some), ← hunits, List.length_map]
    refine ⟨turns, t, hran, htranscript, ?_⟩
    rw [htranscript, prompts_eq, hlength]
    rfl
  · intro front bad rest units hls hunits hbad
    have hne := hlines.ne_nil
    rw [hls] at hne
    obtain ⟨turns, t, hran, hrun⟩ :=
      exists_ran (fun l hl => hne l (List.mem_append_left _ hl)) hunits s (bad :: rest ++ [[]])
    have htranscript : run s input = ⟨turns, false, t⟩ := by
      rw [run, hls, List.append_assoc, hrun, List.cons_append, runOnto,
        step_unreadable (hne bad (by simp)) (Option.map_eq_none_iff.mp hbad)]
      simp
    have hlength : turns.length = front.length := by
      rw [hran.length_eq, ← List.length_map (f := some), ← hunits, List.length_map]
    refine ⟨turns, t, hran, htranscript, ?_⟩
    rw [htranscript, prompts_eq, hlength]
    exact String.append_empty
  · intro keep input' hkeep hinput
    rw [run, run, hinput, (hlines.kept keep).lines_eq]
    exact runOnto_without hlines.ne_nil ⟨rfl, rfl⟩ hkeep

def strayLine : ByteArray :=
  -- The second line has a character that no token begins with, and the last line is not finished.
  "var a;\n @\nprint a;".toUTF8

theorem run_independent_of_faulty_lines_strayLine :
    (run (.start .unlimited) strayLine).Without (· != 1) (run (.start .unlimited) "var a;\nprint a;".toUTF8) := by
  obtain ⟨ls, hcut, -, -, hwithout⟩ := run_independent_of_faulty_lines (.start .unlimited) strayLine
  obtain rfl : lines strayLine.data.toList = ls := (hcut _).mp (cutsInto_iff.mpr rfl)
  apply hwithout
  · intro i line hline hi
    obtain rfl : i = 1 := by simpa using hi
    have hstray : (lines strayLine.data.toList)[1]? = some [32, 64, 10] := by decide +kernel
    obtain rfl : [32, 64, 10] = line := Option.some.inj (hstray.symm.trans hline)
    have hfaults : (Lox.scan "@").map Scan.faults = .ok [⟨.unexpectedCharacter '@', 1⟩] := by decide +kernel
    rw [scan_eq] at hfaults
    refine ⟨"@", by decide +kernel, _, scan_eq "@", .inl ?_⟩
    rw [Except.ok.inj hfaults]
    simp
  · decide +kernel

end Prompt

end Lox
