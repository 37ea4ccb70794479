import Lox.Proofs.Machine.Troubles
import Lox.Proofs.Parse.NoLoss
import Lox.Proofs.Scan.Pieces
import Lox.Proofs.Session.Calls

namespace Lox.Session

variable {δ : Type} {stop : Failure → Prop}

lemma unitFailure?_ne_internal {s : Session δ} {failure : Failure} (h : s.unitFailure? = some failure)
    (fault : InternalFault) : failure ≠ .internal fault := by
  unfold unitFailure? at h
  split at h
  · cases h
    simp
  · split at h <;> cases h
    simp

variable [Device δ]

def Reliable (s : Session δ) : Prop :=
  s.machine.sink.Reliable

lemma beginUnit_keeps : Keeps Reliable (beginUnit : Action δ Unit) (fun _ => True) stop :=
  ⟨fun _ hs => ⟨hs, trivial⟩⟩

lemma scan_keeps (source : String) :
    Keeps Reliable (scan source : Action δ (List Token)) (· = (scanned source).tokens) stop := by
  refine ⟨fun s hs => ?_⟩
  unfold Ends scan
  rw [scan_eq]
  refine ⟨?_, rfl⟩
  simpa only [Reliable, Machine.sink_noteAll] using hs

lemma parse_keeps (tokens : List Token) :
    Keeps Reliable (parse tokens : Action δ (List Stmt)) (fun statements => ∀ s ∈ statements, s.Derives 0)
      (fun _ => ∀ t ∈ tokens, t.isEof = false) := by
  refine ⟨fun s hs => ?_⟩
  unfold Ends parse
  cases hp : Parsed.ofTokens tokens with
  | ok parsed => exact ⟨hs, (Parsed.ofTokens_ok hp).1⟩
  | error failure => exact ⟨hs, (Parsed.ofTokens_error hp).2⟩

lemma interpret_keeps {statements : List Stmt} {trouble : Trouble → Prop}
    (h : ∀ s ∈ statements, s.Each (·.eval.StopsBy trouble)) :
    Keeps Reliable (interpret statements : Action δ Unit) (fun _ => True)
      (fun f => ∃ t, trouble t ∧ f = t.toFailure) := by
  refine ⟨fun s hs => ?_⟩
  have hi := (interpret_stopsBy h).ends s.machine hs
  unfold Ends interpret
  cases hr : Lox.interpret statements s.machine with
  | ok _ machine => exact hi.ok hr
  | error t machine =>
    obtain ⟨hm, ht⟩ := hi.stop hr
    cases t with
    | runtime fault => exact ⟨hm, _, ht, rfl⟩
    | internal fault => exact ⟨hm, _, ht, rfl⟩

lemma parse_keeps_of_end {tokens : List Token} {t : Token} (ht : t ∈ tokens) (he : t.isEof = true) :
    Keeps Reliable (parse tokens : Action δ (List Stmt)) (fun statements => ∀ s ∈ statements, s.Derives 0) stop :=
  (parse_keeps tokens).mono (fun _ h => h) fun _ h => by simp [h t ht] at he

lemma run_keeps (source : String) :
    Keeps Reliable (run source : Action δ Unit) (fun _ => True) (fun f => ∀ fault, f ≠ .internal fault) := by
  obtain ⟨front, line, htokens, -⟩ := exists_scanned_tokens source
  unfold run
  refine beginUnit_keeps.bind fun _ _ => (scan_keeps source).bind ?_
  rintro _ rfl
  refine (parse_keeps_of_end (by simp [htokens]) (Token.isEof_endAt line)).bind fun statements hd => ⟨fun s hs => ?_⟩
  rw [ends_bind, ends_get]
  cases hf : s.unitFailure? with
  | some failure => exact ⟨hs, unitFailure?_ne_internal hf⟩
  | none =>
    have hrun := interpret_keeps (δ := δ) fun s hs => (hd s hs).each fun _ _ h => h.eval_stopsBy
    refine (hrun.mono (fun _ h => h) ?_).ends s hs
    rintro _ ⟨_, ⟨fault, rfl⟩, rfl⟩ internal
    simp [Trouble.toFailure]

lemma runFile_keeps (path : String) (contents : Except ReadFault ByteArray) :
    Keeps Reliable (runFile path contents : Action δ Unit) (fun _ => True) (fun _ => True) := by
  unfold runFile
  split
  · exact .throw trivial
  · split
    · exact .throw trivial
    · exact (run_keeps _).mono (fun _ h => h) fun _ _ => trivial

lemma Action.after_reliable {α : Type} {p : Action δ α} {ok : α → Prop} (h : Keeps Reliable p ok stop) {s : Session δ}
    (hs : s.Reliable) : (p.after s).Reliable := by
  have he := h.ends s hs
  unfold Action.after
  cases hp : p s with
  | ok a s' => exact (he.ok hp).1
  | error f s' => exact (he.stop hp).1

lemma Call.perform_reliable (c : Call) {s : Session δ} (hs : s.Reliable) : (c.perform s).Reliable := by
  cases c with
  | run source =>
    rw [Call.perform]
    exact Action.after_reliable (run_keeps source) hs
  | runFile path contents =>
    rw [Call.perform]
    exact Action.after_reliable (runFile_keeps path contents) hs
  | runLines input =>
    have hrun : ∀ source (s : Session δ), Reliable s → Reliable ((Session.run source).after s) := by
      intro source s hs
      exact Action.after_reliable (run_keeps source) hs
    rw [Call.perform, Prompt.run]
    exact runOnto_invariant hrun [] hs _
  | scan source =>
    rw [Call.perform]
    exact Action.after_reliable (@scan_keeps _ (fun _ => True) _ source) hs
  | parse tokens =>
    rw [Call.perform]
    exact Action.after_reliable (parse_keeps tokens) hs
  | interpret statements =>
    rw [Call.perform]
    exact Action.after_reliable (interpret_keeps fun s _ => Stmt.each_of_forall Expr.eval_stopsBy_any s) hs

lemma Reachable.reliable {sink : Sink δ} (hsink : sink.Reliable) {s : Session δ} (hs : Reachable sink s) :
    s.Reliable := by
  induction hs with
  | start => exact hsink
  | call c _ ih => exact c.perform_reliable ih

theorem run_never_internal (sink : Sink δ) (hsink : sink.Reliable) (s : Session δ) (hs : Reachable sink s)
    (source : String) :
    (∃ s', run source s = .ok () s' ∨ (∃ n, run source s = .error (.lexical n) s') ∨
        (∃ n, run source s = .error (.syntactic n) s') ∨ ∃ fault, run source s = .error (.runtime fault) s') ∧
      ∃ result : Scan, Lox.scan source = .ok result ∧ (∃ s', scan source s = .ok result.tokens s') ∧
        (∃ front line, result.tokens = front ++ [Token.endAt line] ∧ ∀ t ∈ front, t.isEof = false) ∧
        ∃ parsed, Parsed.ofTokens result.tokens = .ok parsed ∧
          ∀ stmt ∈ parsed.statements, stmt.Each fun e =>
            ∀ scopes trouble scopes', e.eval scopes = .error trouble scopes' → ∃ fault, trouble = .runtime fault := by
  obtain ⟨front, line, htokens, hfront⟩ := exists_scanned_tokens source
  have hend : Token.endAt line ∈ (scanned source).tokens := by simp [htokens]
  refine ⟨?_, scanned source, scan_eq source, ?_, ⟨front, line, htokens, hfront⟩, ?_⟩
  · have h := (run_keeps source).ends s (hs.reliable hsink)
    cases hr : run source s with
    | ok _ s' => exact ⟨s', .inl rfl⟩
    | error failure s' =>
      have hne := (h.stop hr).2
      cases failure with
      | internal fault => exact absurd rfl (hne fault)
      | lexical n => exact ⟨s', .inr (.inl ⟨n, rfl⟩)⟩
      | syntactic n => exact ⟨s', .inr (.inr (.inl ⟨n, rfl⟩))⟩
      | runtime fault => exact ⟨s', .inr (.inr (.inr ⟨fault, rfl⟩))⟩
  · simp only [scan, scan_eq]
    exact ⟨_, rfl⟩
  · obtain ⟨parsed, hp⟩ := Parsed.exists_ofTokens hend rfl
    refine ⟨parsed, hp, fun stmt hstmt => ((Parsed.ofTokens_ok hp).1 stmt hstmt).each fun _ e he => ?_⟩
    intro scopes trouble scopes' h
    exact ((he.eval_stopsBy.ends scopes trivial).stop h).2

def tampered : Session Buffer :=
  -- A session that was handed a tree no source gives.
  (Call.interpret [.expression (.unary (Token.endAt 1) (.literal .nil))]).perform
    ((Call.run "var a = 1;").perform (.start .unlimited))

theorem run_never_internal_tampered :
    Sink.unlimited.Reliable ∧ Reachable .unlimited tampered ∧
      ∃ s', run "print a - -" tampered = .ok () s' ∨ (∃ n, run "print a - -" tampered = .error (.lexical n) s') ∨
        (∃ n, run "print a - -" tampered = .error (.syntactic n) s') ∨
        ∃ fault, run "print a - -" tampered = .error (.runtime fault) s' := by
  have hs : Reachable .unlimited tampered := .call _ (.call _ .start)
  exact ⟨Sink.reliable_unlimited, hs,
    (run_never_internal .unlimited Sink.reliable_unlimited tampered hs "print a - -").1⟩

end Lox.Session
