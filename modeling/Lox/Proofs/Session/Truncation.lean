import Lox.Proofs.Machine.Refinement
import Lox.Proofs.Session.Units

/-! A sink with room for only so many bytes. The run on it is the run on a sink without limit, cut off at the first
byte that does not fit. -/

namespace Lox

def Machine.limit (c : ℕ) (m : Machine Buffer) : Machine Buffer :=
  { m with sink := ⟨m.sink.written, { m.sink.device with room := some c }⟩ }

namespace Exec

variable {α β : Type}

/-- The run from `m`, which has no limit, writes `out`, and a limit cuts off what does not fit. -/
structure Writes (p : Exec Buffer α) (m : Machine Buffer) (out : ByteArray) : Prop where
  sink : (stateAfter p m).sink = { m.sink with written := m.sink.written ++ out }
  fits : ∀ c, out.size ≤ c → p (m.limit c) = mapState (Machine.limit (c - out.size)) (p m)
  cuts : ∀ c, c < out.size → ∃ m', p (m.limit c) = .error (.internal (.within .writing (.refused "sink full"))) m' ∧
    m'.sink.written = m.sink.written ++ out.extract 0 c

def Truncates (p : Exec Buffer α) : Prop :=
  ∀ m, m.sink.device.room = none → ∃ out, Writes p m out

lemma truncates_of_silent {p : Exec Buffer α} (hsink : ∀ m, (stateAfter p m).sink = m.sink)
    (hlimit : ∀ m c, p (m.limit c) = mapState (Machine.limit c) (p m)) : Truncates p := by
  intro m _
  refine ⟨.empty, ?_, fun c _ => hlimit m c, fun c hc => absurd hc (Nat.not_lt_zero c)⟩
  rw [ByteArray.append_empty, hsink]

lemma truncates_pure (a : α) : Truncates (pure a : Exec Buffer α) :=
  truncates_of_silent (fun _ => rfl) fun _ _ => rfl

lemma truncates_note (e : Event) : Truncates (note e) :=
  truncates_of_silent (fun _ => rfl) fun _ _ => rfl

lemma truncates_define (name : String) (v : Value) : Truncates (define name v) :=
  truncates_of_silent (fun _ => rfl) fun _ _ => rfl

lemma truncates_eval (e : Expr) : Truncates (eval e) := by
  refine truncates_of_silent (fun m => ?_) fun m c => ?_
  · rw [stateAfter_eval]
  · have hscopes : (m.limit c).scopes = m.scopes := rfl
    rw [eval, eval, hscopes]
    cases e.eval m.scopes <;> rfl

lemma truncates_flush : Truncates flush := by
  have hflush (m : Machine Buffer) : flush m =
      if m.sink.device.flushFails then .error (.internal (.within .flushing (.refused "flush refused"))) m
      else .ok () m := by
    cases hf : m.sink.device.flushFails with
    | true => exact toSink_error (by simp [Sink.flush, Device.flush, hf])
    | false => exact toSink_ok (by simp [Sink.flush, Device.flush, hf])
  refine truncates_of_silent (fun m => ?_) fun m c => ?_
  · rw [stateAfter, hflush]
    cases m.sink.device.flushFails <;> rfl
  · have hfails : (m.limit c).sink.device.flushFails = m.sink.device.flushFails := rfl
    rw [hflush, hflush, hfails]
    cases m.sink.device.flushFails <;> rfl

lemma extract_of_size_le {bytes : ByteArray} {c : ℕ} (h : bytes.size ≤ c) : bytes.extract 0 c = bytes := by
  have hmax := @ByteArray.extract_zero_max_size bytes c
  rwa [Nat.max_eq_left h] at hmax

lemma truncates_printLine (line : String) : Truncates (printLine line) := by
  intro m hm
  have hfree : Sink.write (line ++ "\n").toUTF8 m.sink =
      .ok () { m.sink with written := m.sink.written ++ (line ++ "\n").toUTF8 } := by
    simp only [Sink.write, Device.write, hm]
  refine ⟨(line ++ "\n").toUTF8, ?_, fun c hc => ?_, fun c hc => ?_⟩
  · rw [stateAfter, printLine, toSink_ok hfree]
  · have hwrite : Sink.write (line ++ "\n").toUTF8 (m.limit c).sink = .ok ()
        ⟨m.sink.written ++ (line ++ "\n").toUTF8,
          { m.sink.device with room := some (c - (line ++ "\n").toUTF8.size) }⟩ := by
      simp only [Sink.write, Device.write, Machine.limit, if_pos hc]
    rw [printLine, toSink_ok hfree, toSink_ok hwrite]
    rfl
  · have hwrite : Sink.write (line ++ "\n").toUTF8 (m.limit c).sink = .error "sink full"
        ⟨m.sink.written ++ (line ++ "\n").toUTF8.extract 0 c,
          { m.sink.device with room := some (c - (line ++ "\n").toUTF8.size) }⟩ := by
      simp only [Sink.write, Device.write, Machine.limit, if_neg (Nat.not_le_of_lt hc)]
    exact ⟨_, toSink_error hwrite, rfl⟩

lemma Writes.room {p : Exec Buffer α} {m : Machine Buffer} {out : ByteArray} (h : Writes p m out)
    (hm : m.sink.device.room = none) :
    (stateAfter p m).sink.device.room = none := by
  rw [h.sink]
  exact hm

lemma Writes.of_error {p : Exec Buffer α} {f : α → Exec Buffer β} {m n : Machine Buffer} {t : Trouble} {out : ByteArray}
    (h : Writes p m out) (hp : p m = .error t n) : Writes (p >>= f) m out where
  sink := by
    have hsink := h.sink
    simp only [stateAfter, hp] at hsink
    simpa only [stateAfter, bind_eq_of_error hp] using hsink
  fits c hc := by
    have hfits := h.fits c hc
    rw [hp] at hfits
    rw [bind_eq_of_error hfits, bind_eq_of_error hp, mapState]
  cuts c hc := by
    obtain ⟨m', hrun, hwritten⟩ := h.cuts c hc
    exact ⟨m', bind_eq_of_error hrun, hwritten⟩

lemma Writes.bind {p : Exec Buffer α} {f : α → Exec Buffer β} {m n : Machine Buffer} {a : α} {out out' : ByteArray}
    (h : Writes p m out)
    (hp : p m = .ok a n) (hf : Writes (f a) n out') : Writes (p >>= f) m (out ++ out') := by
  have hn : n.sink = { m.sink with written := m.sink.written ++ out } := by
    simpa only [stateAfter, hp] using h.sink
  have hfits (c : ℕ) (hc : out.size ≤ c) : p (m.limit c) = .ok a (n.limit (c - out.size)) := by
    rw [h.fits c hc, hp, mapState]
  refine ⟨?_, fun c hc => ?_, fun c hc => ?_⟩
  · have hsink := hf.sink
    rw [hn, ByteArray.append_assoc] at hsink
    simpa only [stateAfter, bind_eq_of_ok hp] using hsink
  · rw [ByteArray.size_append] at hc ⊢
    rw [bind_eq_of_ok (hfits c (by omega)), hf.fits _ (by omega), Nat.sub_sub, bind_eq_of_ok hp]
  · rw [ByteArray.size_append] at hc
    rw [ByteArray.extract_append, Nat.zero_sub]
    by_cases hle : out.size ≤ c
    · obtain ⟨m', hrun, hwritten⟩ := hf.cuts (c - out.size) (by omega)
      refine ⟨m', (bind_eq_of_ok (hfits c hle)).trans hrun, ?_⟩
      rw [hwritten, hn, extract_of_size_le hle, ByteArray.append_assoc]
    · -- The first part alone is too long, so the second never begins.
      obtain ⟨m', hrun, hwritten⟩ := h.cuts c (by omega)
      have hempty : out'.extract 0 (c - out.size) = .empty := ByteArray.extract_eq_empty_iff.mpr (by omega)
      refine ⟨m', bind_eq_of_error hrun, ?_⟩
      rw [hwritten, hempty, ByteArray.append_empty]

lemma Truncates.bind {p : Exec Buffer α} {f : α → Exec Buffer β} (hp : Truncates p) (hf : ∀ a, Truncates (f a)) :
    Truncates (p >>= f) := by
  intro m hm
  obtain ⟨out, h⟩ := hp m hm
  cases hr : p m with
  | error t n => exact ⟨out, h.of_error hr⟩
  | ok a n =>
    have hn := h.room hm
    simp only [stateAfter, hr] at hn
    obtain ⟨out', h'⟩ := hf a n hn
    exact ⟨out ++ out', h.bind hr h'⟩

lemma Truncates.inScope {body : Exec Buffer Unit} (h : Truncates body) : Truncates (inScope body) := by
  intro m hm
  obtain ⟨out, hb⟩ := h m.enterScope hm
  refine ⟨out, ?_, fun c hc => ?_, fun c hc => ?_⟩
  · rw [stateAfter_inScope]
    exact hb.sink
  · have hlimit : body (m.limit c).enterScope = mapState (Machine.limit (c - out.size)) (body m.enterScope) :=
      hb.fits c hc
    rw [Exec.inScope, hlimit, Exec.inScope]
    cases body m.enterScope <;> rfl
  · obtain ⟨n, hrun, hwritten⟩ := hb.cuts c hc
    have hlimit : body (m.limit c).enterScope = .error (.internal (.within .writing (.refused "sink full"))) n := hrun
    exact ⟨n.leaveScope m.scopes.current, by simp only [Exec.inScope, hlimit]; rfl, hwritten⟩

end Exec

namespace Stmt

mutual

lemma truncates_exec : ∀ s : Stmt, Exec.Truncates s.exec
  | .block body => by
    rw [exec]
    exact (truncates_execAll body).inScope
  | .expression e => by
    rw [exec]
    exact (Exec.truncates_eval e).bind fun _ => Exec.truncates_pure _
  | .print e => by
    rw [exec]
    exact (Exec.truncates_eval e).bind fun v => Exec.truncates_printLine v.render
  | .var name none => by
    rw [exec]
    exact (Exec.truncates_pure _).bind fun v => Exec.truncates_define name.lexeme v
  | .var name (some e) => by
    rw [exec]
    exact (Exec.truncates_eval e).bind fun v => Exec.truncates_define name.lexeme v

lemma truncates_execAll : ∀ body : List Stmt, Exec.Truncates (execAll body)
  | [] => by
    rw [execAll]
    exact Exec.truncates_pure _
  | s :: rest => by
    rw [execAll]
    exact (Exec.truncates_note _).bind fun _ => (truncates_exec s).bind fun _ => truncates_execAll rest

end

end Stmt

lemma truncates_interpret (statements : List Stmt) : Exec.Truncates (interpret statements) :=
  (Exec.truncates_note _).bind fun _ => (Stmt.truncates_execAll statements).bind fun _ => Exec.truncates_flush

namespace Session

def onSink (s : Session Buffer) (sink : Sink Buffer) : Session Buffer :=
  { s with machine := { s.machine with sink } }

theorem interpret_truncates (s : Session Buffer) (statements : List Stmt) (written : ByteArray) (c : ℕ) :
    ∃ out : ByteArray,
      (stateAfter (interpret statements) (s.onSink ⟨written, ⟨none, false⟩⟩)).machine.sink.written = written ++ out ∧
      (out.size ≤ c → interpret statements (s.onSink ⟨written, ⟨some c, false⟩⟩) =
        mapState (onSink · ⟨written ++ out, ⟨some (c - out.size), false⟩⟩)
          (interpret statements (s.onSink ⟨written, ⟨none, false⟩⟩))) ∧
      (c < out.size → ∃ fault t,
        interpret statements (s.onSink ⟨written, ⟨some c, false⟩⟩) = .error (.internal fault) t ∧
        fault = .within .writing (.refused "sink full") ∧ fault.chain = "Failed write print output: sink full" ∧
        t.machine.sink.written = written ++ out.extract 0 c ∧ t.reported = s.reported ∧
        (s.machine.AtRest → t.machine.AtRest ∧ t.machine.scopes.depth = 1)) := by
  obtain ⟨out, h⟩ := truncates_interpret statements (s.onSink ⟨written, ⟨none, false⟩⟩).machine rfl
  have hfree := run_interpret statements (s.onSink ⟨written, ⟨none, false⟩⟩)
  have hbounded := run_interpret statements (s.onSink ⟨written, ⟨some c, false⟩⟩)
  have hsink := h.sink
  refine ⟨out, ?_, fun hc => ?_, fun hc => ?_⟩
  · rw [machine_interpret, hsink]
    rfl
  · have hfits := h.fits c hc
    cases hr : Lox.interpret statements (s.onSink ⟨written, ⟨none, false⟩⟩).machine with
    | ok _ n =>
      rw [hr] at hfits
      simp only [stateAfter, hr] at hsink
      rw [hbounded.ok hfits, hfree.ok hr, Machine.limit, hsink]
      rfl
    | error e n =>
      rw [hr] at hfits
      simp only [stateAfter, hr] at hsink
      rw [hbounded.stop hfits, hfree.stop hr, Machine.limit, hsink]
      rfl
  · obtain ⟨n, hrun, hwritten⟩ := h.cuts c hc
    refine ⟨_, _, hbounded.stop hrun, rfl, rfl, hwritten, Array.append_empty, fun hs => ?_⟩
    have hrest : Machine.AtRest ((s.onSink ⟨written, ⟨none, false⟩⟩).machine.limit c) := ⟨hs.linked, hs.current⟩
    have hafter := hrest.interpret statements
    simp only [stateAfter, hrun] at hafter
    exact ⟨hafter, hafter.depth⟩

def shortPrints : List Stmt :=
  -- `{ print "ab"; print "cd"; }`
  [.block [.print (.literal (.string "ab")), .print (.literal (.string "cd"))]]

theorem interpret_truncates_shortPrints :
    ∃ fault t,
      interpret shortPrints (onSink (.start .unlimited) ⟨.empty, ⟨some 4, false⟩⟩) = .error (.internal fault) t ∧
      fault.chain = "Failed write print output: sink full" ∧ t.machine.sink.written = "ab\nc".toUTF8 ∧
      t.machine.scopes.depth = 1 := by
  obtain ⟨out, hout, -, hcut⟩ := interpret_truncates (.start .unlimited) shortPrints .empty 4
  have hlines : out = "ab\ncd\n".toUTF8 := by
    rw [ByteArray.empty_append] at hout
    exact hout.symm.trans rfl
  obtain ⟨fault, t, hrun, -, hchain, hwritten, -, hrest⟩ := hcut (by rw [hlines]; decide)
  rw [hlines] at hwritten
  exact ⟨fault, t, hrun, hchain, hwritten.trans rfl, (hrest ⟨Scopes.linked_global, rfl⟩).2⟩

end Session

end Lox
