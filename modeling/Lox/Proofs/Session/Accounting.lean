import Lox.Proofs.Session.Units

/-! What a session counts and what it has reported. Whatever calls are made, the faults counted are the compile
diagnostics since the last unit began, and there are as many runtime diagnostics as calls that failed at run time. -/

namespace Lox

def Diagnostic.isCompile (d : Diagnostic) : Bool :=
  d.phase == .compile

def Diagnostic.isRuntime (d : Diagnostic) : Bool :=
  d.phase == .runtime

def Failure.isRuntime : Failure → Bool
  | .runtime _ => true
  | _ => false

namespace Session

variable {δ : Type}

def faultCount (s : Session δ) : ℕ :=
  s.lexicalFaults + s.syntaxFaults

def Action.failure? {α : Type} (p : Action δ α) (s : Session δ) : Option Failure :=
  match p s with
  | .ok _ _ => none
  | .error failure _ => some failure

lemma Action.failure?_eq_some {α : Type} {p : Action δ α} {s : Session δ} {failure : Failure} :
    p.failure? s = some failure ↔ ∃ s', p s = .error failure s' := by
  rw [Action.failure?]
  cases p s <;> simp

namespace Call

variable [Device δ]

def failure? : Call → Session δ → Option Failure
  | .run source, s => (Session.run source).failure? s
  | .runFile path contents, s => (Session.runFile path contents).failure? s
  | .runLines _, _ => none
  | .scan source, s => (Session.scan source).failure? s
  | .parse tokens, s => (Session.parse tokens).failure? s
  | .interpret statements, s => (Session.interpret statements).failure? s

def isPrompt : Call → Bool
  | .runLines _ => true
  | _ => false

def beginsUnit : Call → Bool
  | .run _ => true
  | .runFile _ (.ok bytes) => (String.fromUTF8? bytes).isSome
  | _ => false

end Call

section Calls

variable [Device δ]

def performAll (calls : List Call) (s : Session δ) : Session δ :=
  calls.foldl (fun s c => c.perform s) s

def failures : List Call → Session δ → List (Option Failure)
  | [], _ => []
  | c :: calls, s => c.failure? s :: failures calls (c.perform s)

end Calls

structure Action.Reports {α : Type} (p : Action δ α) (s : Session δ) (base : ℕ) (new : List Diagnostic) : Prop where
  reported : (p.after s).reported = s.reported ++ new
  faultCount : (p.after s).faultCount = base + new.countP Diagnostic.isCompile
  runtime : new.countP Diagnostic.isRuntime = if (p.failure? s).any Failure.isRuntime then 1 else 0

lemma appendList_append {α : Type} (xs : Array α) (ys zs : List α) : xs ++ ys ++ zs = xs ++ (ys ++ zs) := by
  apply Array.toList_inj.mp
  simp

lemma Action.Reports.of_compile {α : Type} {p : Action δ α} {s : Session δ} {base : ℕ} {new : List Diagnostic}
    (hnew : ∀ d ∈ new, d.phase = .compile) (hreported : (p.after s).reported = s.reported ++ new)
    (hcount : (p.after s).faultCount = base + new.length) (hfailure : (p.failure? s).any Failure.isRuntime = false) :
    p.Reports s base new where
  reported := hreported
  faultCount := by
    have hall : new.countP Diagnostic.isCompile = new.length :=
      List.countP_eq_length.mpr fun d hd => by simp [Diagnostic.isCompile, hnew d hd]
    rw [hall, hcount]
  runtime := by
    have hnone : new.countP Diagnostic.isRuntime = 0 :=
      List.countP_eq_zero.mpr fun d hd => by simp [Diagnostic.isRuntime, hnew d hd]
    rw [hnone, hfailure, if_neg Bool.false_ne_true]

lemma scan_reports (source : String) (s : Session δ) :
    (scan source).Reports s s.faultCount ((scanned source).faults.map Diagnostic.ofLexical) := by
  apply Action.Reports.of_compile
  · simp [Diagnostic.ofLexical]
  · simp [Action.after, scan, scan_eq]
  · simp [Action.after, scan, scan_eq, faultCount, Nat.add_right_comm]
  · simp [Action.failure?, scan, scan_eq]

lemma exists_parse_reports (tokens : List Token) (s : Session δ) :
    ∃ new, (parse tokens).Reports s s.faultCount new := by
  cases hp : Parsed.ofTokens tokens with
  | error failure =>
    obtain ⟨rfl, -⟩ := Parsed.ofTokens_error hp
    have hrun : parse tokens s = .error (.internal .missingEnd) (s.note .parsing) := by simp only [parse, hp]
    refine ⟨[], .of_compile (by simp) ?_ ?_ ?_⟩
    · simp [Action.after, hrun, note]
    · simp [Action.after, hrun, note, faultCount]
    · simp [Action.failure?, hrun, Failure.isRuntime]
  | ok parsed =>
    refine ⟨parsed.faults.map Diagnostic.ofSyntax, .of_compile (by simp [Diagnostic.ofSyntax]) ?_ ?_ ?_⟩
    · simp [Action.after, parse, hp]
    · simp [Action.after, parse, hp, faultCount, Nat.add_assoc]
    · simp [Action.failure?, parse, hp]

lemma exitCode_unitFailure? {s : Session δ} {failure : Failure} (h : s.unitFailure? = some failure) :
    failure.exitCode = 65 := by
  rw [unitFailure?] at h
  split at h
  · cases h
    rfl
  · split at h <;> cases h
    rfl

variable [Device δ]

lemma exists_interpret_reports (statements : List Stmt) (s : Session δ) :
    ∃ new, (interpret statements).Reports s s.faultCount new := by
  have h := run_interpret statements s
  cases hr : Lox.interpret statements s.machine with
  | ok _ m =>
    have hrun := h.ok hr
    refine ⟨[], ?_, ?_, ?_⟩
    · simp [Action.after, hrun]
    · simp [Action.after, hrun, faultCount]
    · simp [Action.failure?, hrun]
  | error t m =>
    have hrun := h.stop hr
    refine ⟨t.diagnostics, ?_, ?_, ?_⟩
    · simp [Action.after, hrun]
    · cases t <;> simp [Action.after, hrun, faultCount, Trouble.diagnostics, Diagnostic.isCompile, Diagnostic.ofRuntime]
    · cases t <;> simp [Action.failure?, hrun, Trouble.toFailure, Trouble.diagnostics, Diagnostic.isRuntime,
        Diagnostic.ofRuntime, Failure.isRuntime]

lemma exists_run_reports (source : String) (s : Session δ) : ∃ new, (run source).Reports s 0 new := by
  obtain ⟨parsed, hp⟩ := exists_parsed source
  cases hf : (s.compiled source parsed).unitFailure? with
  | some failure =>
    have hcode := exitCode_unitFailure? hf
    have hrun := run_eq_error hp hf
    refine ⟨(scanned source).faults.map Diagnostic.ofLexical ++ parsed.faults.map Diagnostic.ofSyntax,
      .of_compile ?_ ?_ ?_ ?_⟩
    · simp [or_imp, forall_and, Diagnostic.ofLexical, Diagnostic.ofSyntax]
    · simp [Action.after, hrun, compiled, appendList_append]
    · simp [Action.after, hrun, compiled, faultCount]
    · cases failure <;> simp_all [Action.failure?, Failure.isRuntime, Failure.exitCode]
  | none =>
    have hrun := run_eq_interpret hp hf
    have hclean : (s.compiled source parsed).faultCount = 0 := by
      rw [faultCount]
      by_contra hne
      rw [unitFailure?_eq (Nat.pos_of_ne_zero hne)] at hf
      cases hf
    have hreported : (s.compiled source parsed).reported = s.reported := by
      obtain ⟨hl, hs⟩ := Nat.add_eq_zero_iff.mp hclean
      simp [compiled, List.length_eq_zero_iff.mp hl, List.length_eq_zero_iff.mp hs]
    obtain ⟨new, h⟩ := exists_interpret_reports parsed.statements (s.compiled source parsed)
    refine ⟨new, ?_, ?_, ?_⟩
    · rw [Action.after, hrun, ← hreported]
      exact h.reported
    · rw [Action.after, hrun, ← hclean]
      exact h.faultCount
    · rw [Action.failure?, hrun]
      exact h.runtime

lemma exists_runFile_reports (path : String) (contents : Except ReadFault ByteArray) (s : Session δ) :
    ∃ new, (runFile path contents).Reports s
      (if (Call.runFile path contents).beginsUnit then 0 else s.faultCount) new := by
  have hrefused (cause : ReadFault) :
      (throw (.internal (.within (.opening path) (.unreadable cause))) : Action δ Unit).Reports s s.faultCount [] :=
    .of_compile (by simp) Array.appendList_nil.symm rfl rfl
  cases contents with
  | error cause => exact ⟨[], hrefused cause⟩
  | ok bytes =>
    cases hs : String.fromUTF8? bytes with
    | none =>
      simp only [runFile, Call.beginsUnit, hs]
      exact ⟨[], hrefused .notUtf8⟩
    | some source =>
      simp only [runFile, Call.beginsUnit, hs]
      exact exists_run_reports source s

structure Call.Reports (c : Call) (s : Session δ) (new : List Diagnostic) : Prop where
  reported : (c.perform s).reported = s.reported ++ new
  faultCount : (c.perform s).faultCount = (if c.beginsUnit then 0 else s.faultCount) + new.countP Diagnostic.isCompile
  runtime : new.countP Diagnostic.isRuntime = if (c.failure? s).any Failure.isRuntime then 1 else 0

lemma Call.exists_reports {c : Call} (hc : c.isPrompt = false) (s : Session δ) : ∃ new, c.Reports s new := by
  cases c with
  | run source =>
    obtain ⟨new, h⟩ := exists_run_reports source s
    exact ⟨new, h.reported, h.faultCount, h.runtime⟩
  | runFile path contents =>
    obtain ⟨new, h⟩ := exists_runFile_reports path contents s
    exact ⟨new, h.reported, h.faultCount, h.runtime⟩
  | runLines input => cases hc
  | scan source =>
    have h := scan_reports source s
    exact ⟨_, h.reported, h.faultCount, h.runtime⟩
  | parse tokens =>
    obtain ⟨new, h⟩ := exists_parse_reports tokens s
    exact ⟨new, h.reported, h.faultCount, h.runtime⟩
  | interpret statements =>
    obtain ⟨new, h⟩ := exists_interpret_reports statements s
    exact ⟨new, h.reported, h.faultCount, h.runtime⟩

structure AllReport (calls : List Call) (s : Session δ) (new : List Diagnostic) : Prop where
  reported : (performAll calls s).reported = s.reported ++ new
  faultCount : (∀ c ∈ calls.tail, c.beginsUnit = false) → (performAll calls s).faultCount =
    (if calls.head?.any Call.beginsUnit then 0 else s.faultCount) + new.countP Diagnostic.isCompile
  runtime : new.countP Diagnostic.isRuntime = (failures calls s).countP (·.any Failure.isRuntime)

lemma AllReport.cons {c : Call} {calls : List Call} {s : Session δ} {first rest : List Diagnostic}
    (hfirst : c.Reports s first) (hrest : AllReport calls (c.perform s) rest) :
    AllReport (c :: calls) s (first ++ rest) := by
  have hrun : performAll (c :: calls) s = performAll calls (c.perform s) := rfl
  refine ⟨?_, fun hwithin => ?_, ?_⟩
  · rw [hrun, hrest.reported, hfirst.reported, appendList_append]
  · have hhead : calls.head?.any Call.beginsUnit = false := by
      cases calls with
      | nil => rfl
      | cons d calls => exact hwithin d (.head _)
    have hcount := hrest.faultCount fun d hd => hwithin d (List.mem_of_mem_tail hd)
    rw [hhead, if_neg Bool.false_ne_true, hfirst.faultCount] at hcount
    rw [hrun, hcount, List.countP_append, Nat.add_assoc]
    rfl
  · rw [List.countP_append, hfirst.runtime, hrest.runtime, failures, List.countP_cons, Nat.add_comm]

lemma exists_allReport {calls : List Call} (hcalls : ∀ c ∈ calls, c.isPrompt = false) (s : Session δ) :
    ∃ new, AllReport calls s new := by
  induction calls generalizing s with
  | nil => exact ⟨[], Array.appendList_nil.symm, fun _ => rfl, rfl⟩
  | cons c calls ih =>
    obtain ⟨first, hfirst⟩ := c.exists_reports (hcalls c (.head _)) s
    obtain ⟨rest, hrest⟩ := ih (fun d hd => hcalls d (.tail _ hd)) (c.perform s)
    exact ⟨first ++ rest, .cons hfirst hrest⟩

/-- The calls fall apart before the last one that begins a unit, or before the first if none does. -/
structure LastUnit (calls before since : List Call) : Prop where
  append : calls = before ++ since
  begins : before ≠ [] → since.head?.any Call.beginsUnit = true
  within : ∀ c ∈ since.tail, c.beginsUnit = false

lemma exists_lastUnit (calls : List Call) : ∃ before since, LastUnit calls before since := by
  induction calls with
  | nil => exact ⟨[], [], rfl, by simp, by simp⟩
  | cons c calls ih =>
    obtain ⟨before, since, rfl, hbegins, hwithin⟩ := ih
    by_cases hunit : since.head?.any Call.beginsUnit = true
    · exact ⟨c :: before, since, rfl, fun _ => hunit, hwithin⟩
    · have hbefore : before = [] := by
        by_contra hne
        exact hunit (hbegins hne)
      refine ⟨[], c :: since, by rw [hbefore]; rfl, by simp, ?_⟩
      cases since with
      | nil => simp
      | cons d since =>
        intro e he
        rcases List.mem_cons.mp he with rfl | he
        · simpa using hunit
        · exact hwithin e he

theorem faults_are_diagnostics_since_unit (sink : Sink δ) (calls : List Call)
    (hcalls : ∀ c ∈ calls, c.isPrompt = false) :
    ∃ (before since : List Call) (new : List Diagnostic), LastUnit calls before since ∧
      (performAll calls (.start sink)).reported = (performAll before (.start sink)).reported ++ new ∧
      ((performAll calls (.start sink)).hadError = true ↔ ∃ d ∈ new, d.phase = .compile) ∧
      (performAll calls (.start sink)).lexicalFaults + (performAll calls (.start sink)).syntaxFaults =
        new.countP Diagnostic.isCompile ∧
      (performAll calls (.start sink)).reported.toList.countP Diagnostic.isRuntime =
        (failures calls (.start sink)).countP (·.any Failure.isRuntime) := by
  obtain ⟨before, since, hlast⟩ := exists_lastUnit calls
  have happend : performAll calls (.start sink) = performAll since (performAll before (.start sink)) := by
    rw [hlast.append]
    exact List.foldl_append
  obtain ⟨all, hall⟩ := exists_allReport hcalls (.start sink)
  have hsince : ∀ c ∈ since, c.isPrompt = false := by
    intro c hc
    exact hcalls c (by simp [hlast.append, hc])
  obtain ⟨new, hnew⟩ := exists_allReport hsince (performAll before (.start sink))
  have hcount := hnew.faultCount hlast.within
  have hbase : (if since.head?.any Call.beginsUnit then 0 else (performAll before (.start sink)).faultCount) = 0 := by
    by_cases hbefore : before = []
    · rw [hbefore]
      exact ite_self 0
    · exact if_pos (hlast.begins hbefore)
  rw [hbase, Nat.zero_add, ← happend] at hcount
  refine ⟨before, since, new, hlast, happend ▸ hnew.reported, ?_, hcount, ?_⟩
  · rw [hadError, decide_eq_true_iff, ← faultCount, hcount, List.countP_pos_iff]
    simp [Diagnostic.isCompile]
  · rw [← hall.runtime, hall.reported]
    simp [start]

def mixedCalls : List Call :=
  -- Calls that fail before, while and after a unit is run: `-nil` as a tree fails at run time.
  [.parse [], .scan "@", .run "print 1", .runFile "gone.lox" (.error .notFound), .scan "@",
    .interpret [.expression (.unary ⟨.symbol .minus, "-", 1⟩ (.literal .nil))]]

theorem faults_are_diagnostics_since_unit_mixedCalls :
    (∀ c ∈ mixedCalls, c.isPrompt = false) ∧
      ∃ (before since : List Call) (new : List Diagnostic), LastUnit mixedCalls before since ∧
        (performAll mixedCalls (.start .unlimited)).reported =
          (performAll before (.start .unlimited)).reported ++ new ∧
        (∃ d ∈ new, d.phase = .compile) ∧ new.countP Diagnostic.isCompile = 2 ∧
        (performAll mixedCalls (.start .unlimited)).reported.toList.countP Diagnostic.isRuntime = 1 := by
  have hcalls : ∀ c ∈ mixedCalls, c.isPrompt = false := by simp [mixedCalls, Call.isPrompt]
  obtain ⟨before, since, new, hlast, hreported, herror, hcount, hruntime⟩ :=
    faults_are_diagnostics_since_unit .unlimited mixedCalls hcalls
  refine ⟨hcalls, before, since, new, hlast, hreported, herror.mp (by decide +kernel), ?_, ?_⟩
  · rw [← hcount]
    decide +kernel
  · rw [hruntime]
    decide +kernel

end Session

end Lox
