import Lox.Proofs.Machine.Lines
import Lox.Proofs.Session.Safety

namespace Lox

def Trouble.diagnostics : Trouble → List Diagnostic
  | .runtime fault => [.ofRuntime fault]
  | .internal _ => []

variable {δ : Type}

namespace Session

variable {source : String} {s : Session δ} {parsed : Parsed}

def compiled (source : String) (parsed : Parsed) (s : Session δ) : Session δ where
  machine := (s.machine.noteAll (.scanning :: (scanned source).faults.map .lexicalFault ++
    [.scanned (scanned source).tokens.length (scanned source).faults.length])).noteAll
      (.parsing :: syntaxEvents parsed.faults ++ [.parsed parsed.statements.length parsed.faults.length])
  lexicalFaults := (scanned source).faults.length
  syntaxFaults := parsed.faults.length
  reported := s.reported ++ (scanned source).faults.map Diagnostic.ofLexical ++ parsed.faults.map Diagnostic.ofSyntax

lemma alike_compiled (source : String) (parsed : Parsed) (s : Session δ) :
    s.machine.Alike (s.compiled source parsed).machine :=
  (Machine.alike_noteAll _ _).trans (Machine.alike_noteAll _ _)

lemma exists_parsed (source : String) : ∃ parsed, Parsed.ofTokens (scanned source).tokens = .ok parsed := by
  obtain ⟨front, line, htokens, -⟩ := exists_scanned_tokens source
  exact Parsed.exists_ofTokens (by simp [htokens]) (Token.isEof_endAt line)

variable [Device δ]

lemma run_eq (hp : Parsed.ofTokens (scanned source).tokens = .ok parsed) (s : Session δ) :
    run source s = match (s.compiled source parsed).unitFailure? with
      | some failure => .error failure (s.compiled source parsed)
      | none => interpret parsed.statements (s.compiled source parsed) := by
  have hget (t : Session δ) : (get : Action δ (Session δ)) t = .ok t t := rfl
  simp only [run, beginUnit, scan, scan_eq, parse, bind, EStateM.bind, hp, hget, Nat.zero_add]
  rw [← compiled]
  cases (s.compiled source parsed).unitFailure? <;> rfl

lemma run_eq_error {failure : Failure} (hp : Parsed.ofTokens (scanned source).tokens = .ok parsed)
    (h : (s.compiled source parsed).unitFailure? = some failure) :
    run source s = .error failure (s.compiled source parsed) := by
  rw [run_eq hp, h]

lemma run_eq_interpret (hp : Parsed.ofTokens (scanned source).tokens = .ok parsed)
    (h : (s.compiled source parsed).unitFailure? = none) :
    run source s = interpret parsed.statements (s.compiled source parsed) := by
  rw [run_eq hp, h]

omit [Device δ] in
lemma unitFailure?_eq {s : Session δ} (h : 0 < s.lexicalFaults + s.syntaxFaults) :
    s.unitFailure? =
      some (if 0 < s.lexicalFaults then .lexical s.lexicalFaults else .syntactic s.syntaxFaults) := by
  by_cases hl : 0 < s.lexicalFaults
  · rw [unitFailure?, if_pos hl, if_pos hl]
  · rw [unitFailure?, if_neg hl, if_neg hl, if_pos (by omega)]

lemma run_interpret (statements : List Stmt) (s : Session δ) :
    Ends (Lox.interpret statements) s.machine (fun _ m => interpret statements s = .ok () { s with machine := m })
      (fun t m => interpret statements s =
        .error t.toFailure { s with machine := m, reported := s.reported ++ t.diagnostics }) := by
  cases hr : Lox.interpret statements s.machine with
  | ok _ m => exact ends_of_ok hr (by simp only [interpret, hr])
  | error t m =>
    refine ends_of_error hr ?_
    cases t with
    | runtime fault => simp [interpret, hr, Trouble.diagnostics, Trouble.toFailure]
    | internal fault => simp [interpret, hr, Trouble.diagnostics, Trouble.toFailure]

lemma machine_interpret (statements : List Stmt) (s : Session δ) :
    (stateAfter (interpret statements) s).machine = stateAfter (Lox.interpret statements) s.machine := by
  have h := run_interpret statements s
  cases hr : Lox.interpret statements s.machine with
  | ok _ m => simp only [stateAfter, h.ok hr, hr]
  | error t m => simp only [stateAfter, h.stop hr, hr]

lemma ends_run (hp : Parsed.ofTokens (scanned source).tokens = .ok parsed)
    (h : (scanned source).faults.length + parsed.faults.length = 0) (s : Session δ) :
    Ends (Lox.interpret parsed.statements) s.machine
      (fun _ m => ∃ s', run source s = .ok () s' ∧ s'.machine.Alike m ∧ s'.reported = s.reported ∧ s'.hadError = false)
      (fun t m => ∃ s', run source s = .error t.toFailure s' ∧ s'.machine.Alike m ∧
        s'.reported = s.reported ++ t.diagnostics ∧ s'.hadError = false) := by
  obtain ⟨hl, hs⟩ := Nat.add_eq_zero_iff.mp h
  have hnone : (s.compiled source parsed).unitFailure? = none := by simp [unitFailure?, compiled, hl, hs]
  have hreported : (s.compiled source parsed).reported = s.reported := by
    simp [compiled, List.length_eq_zero_iff.mp hl, List.length_eq_zero_iff.mp hs]
  have hclean : (s.compiled source parsed).hadError = false := by simp [hadError, compiled, hl, hs]
  have hrun := run_eq_interpret hp hnone
  have hi := run_interpret parsed.statements (s.compiled source parsed)
  apply ((interpret_alike parsed.statements).ends _ _ (alike_compiled source parsed s)).mono
  · rintro _ m ⟨_, m', hq, -, hm⟩
    exact ⟨_, hrun.trans (hi.ok hq), hm.symm, hreported, hclean⟩
  · rintro t m ⟨_, m', hq, rfl, hm⟩
    exact ⟨_, hrun.trans (hi.stop hq), hm.symm, by simp [hreported], hclean⟩

theorem run_reports_faults_once (source : String) (s : Session δ) :
    ∃ (result : Scan) (parsed : Parsed), Lox.scan source = .ok result ∧
      Parsed.ofTokens result.tokens = .ok parsed ∧
      (0 < result.faults.length + parsed.faults.length →
        ∃ failure s', run source s = .error failure s' ∧
          failure = (if 0 < result.faults.length then .lexical result.faults.length
            else .syntactic parsed.faults.length) ∧
          failure.exitCode = 65 ∧
          s'.machine.scopes = s.machine.scopes ∧ s'.machine.sink = s.machine.sink ∧
          s'.reported = s.reported ++ result.faults.map Diagnostic.ofLexical ++
            parsed.faults.map Diagnostic.ofSyntax ∧
          s'.hadError = true) ∧
      (result.faults.length + parsed.faults.length = 0 →
        Ends (Lox.interpret parsed.statements) s.machine
          (fun _ m => ∃ s', run source s = .ok () s' ∧ s'.machine.Alike m ∧ s'.reported = s.reported ∧
            s'.hadError = false)
          (fun t m => ∃ s', run source s = .error t.toFailure s' ∧ s'.machine.Alike m ∧
            s'.reported = s.reported ++ t.diagnostics ∧ s'.hadError = false)) ∧
      ∀ lexicalFaults syntaxFaults, run source { s with lexicalFaults, syntaxFaults } = run source s := by
  obtain ⟨parsed, hp⟩ := exists_parsed source
  refine ⟨scanned source, parsed, scan_eq source, hp, ?_, fun h => ends_run hp h s, ?_⟩
  · intro h
    have hf : (s.compiled source parsed).unitFailure? = _ := unitFailure?_eq h
    have hrun := run_eq hp s
    have halike := alike_compiled source parsed s
    rw [hf] at hrun
    refine ⟨_, _, hrun, rfl, ?_, halike.scopes.symm, halike.sink.symm, rfl, decide_eq_true h⟩
    split <;> rfl
  · intro lexicalFaults syntaxFaults
    have hcounts : compiled source parsed { s with lexicalFaults, syntaxFaults } = s.compiled source parsed := rfl
    rw [run_eq hp, hcounts, ← run_eq hp]

end Session

end Lox
