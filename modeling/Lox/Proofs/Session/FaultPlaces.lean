import Lox.Proofs.Parse.FaultPlaces
import Lox.Proofs.Session.Accounting

namespace Lox

variable {tokens : List Token}

def Symbol.numeric : List Symbol :=
  [.minus, .star, .slash, .greater, .greaterEqual, .less, .lessEqual]

def RuntimeFault.Kind.RaisedBy : RuntimeFault.Kind → Token → Prop
  | .operandMustBeNumber, t => t.kind = .symbol .minus
  | .operandsMustBeNumbersOrStrings, t => t.kind = .symbol .plus
  | .operandsMustBeNumbers, t => ∃ s ∈ Symbol.numeric, t.kind = .symbol s
  | .undefinedVariable name, t => t.kind.isIdentifier = true ∧ name = t.lexeme

def RuntimeFault.PointsInto (tokens : List Token) (fault : RuntimeFault) : Prop :=
  ∃ t ∈ tokens, fault.line = t.line ∧ fault.lexeme = t.lexeme ∧ fault.kind.RaisedBy t

def Trouble.PointsInto (tokens : List Token) (t : Trouble) : Prop :=
  ∀ fault, t = .runtime fault → fault.PointsInto tokens

lemma Trouble.PointsInto.ofToken {kind : RuntimeFault.Kind} {t : Token} (ht : t ∈ tokens) (hk : kind.RaisedBy t) :
    (Trouble.runtime (.ofToken kind t)).PointsInto tokens := by
  rintro _ ⟨⟩
  exact ⟨t, ht, rfl, rfl, hk⟩

lemma Trouble.PointsInto.internal (fault : InternalFault) : (Trouble.internal fault).PointsInto tokens :=
  fun _ h => by cases h

lemma applyUnary_points {op : Token} {v : Value} {t : Trouble} (hop : op ∈ tokens)
    (h : applyUnary op v = .error t) : t.PointsInto tokens := by
  unfold applyUnary at h
  split at h
  · rename_i hminus
    split at h <;> cases h
    exact .ofToken hop hminus
  · cases h
  · cases h
    exact .internal _

lemma exists_numeric {tier : Tier} {op : Token} (hop : tier.isOperator op.kind = true)
    (hplus : op.kind ≠ .symbol .plus) (heq : op.kind ≠ .symbol .equalEqual) (hne : op.kind ≠ .symbol .bangEqual) :
    ∃ s ∈ Symbol.numeric, op.kind = .symbol s := by
  obtain ⟨kind, lexeme, line⟩ := op
  cases kind with
  | symbol s =>
    refine ⟨s, ?_, rfl⟩
    cases s with
    | minus | star | slash | greater | greaterEqual | less | lessEqual => decide
    | plus => exact absurd rfl hplus
    | equalEqual => exact absurd rfl heq
    | bangEqual => exact absurd rfl hne
    | _ => cases tier <;> cases hop
  | _ => cases hop

lemma applyBinary_points {tier : Tier} {op : Token} {a b : Value} {t : Trouble} (hop : op ∈ tokens)
    (htier : tier.isOperator op.kind = true) (h : applyBinary op a b = .error t) : t.PointsInto tokens := by
  unfold applyBinary at h
  split at h
  · rename_i hplus
    split at h <;> cases h
    exact .ofToken hop hplus
  · cases h
  · cases h
  · rename_i hplus heq hne
    split at h
    · obtain ⟨v, hv⟩ := exists_applyNumeric htier hplus heq hne _ _
      rw [hv] at h
      cases h
    · cases h
      exact .ofToken hop (exists_numeric htier hplus heq hne)

namespace Eval

lemma read_points {name : Token} (hname : name ∈ tokens) (hk : name.kind.isIdentifier = true) :
    (read name).StopsBy (Trouble.PointsInto tokens) := by
  refine ⟨fun s _ => ?_⟩
  unfold Ends read
  cases s.get? name.lexeme with
  | some v => exact ⟨trivial, trivial⟩
  | none => exact ⟨trivial, .ofToken hname ⟨hk, rfl⟩⟩

lemma assign_points {name : Token} (hname : name ∈ tokens) (hk : name.kind.isIdentifier = true) (v : Value) :
    Keeps (fun _ => True) (assign name v) (fun _ => True) (Trouble.PointsInto tokens) := by
  refine ⟨fun s _ => ?_⟩
  unfold Ends assign
  cases s.assign? name.lexeme v with
  | some s => exact ⟨trivial, trivial⟩
  | none => exact ⟨trivial, .ofToken hname ⟨hk, rfl⟩⟩

end Eval

def OwnedBy (tokens : List Token) (ms : List Mark) : Prop :=
  ∀ t, .own t ∈ ms → t ∈ tokens

lemma Spells.ownedBy {ms : List Mark} {ts : List Token} (h : Spells ms ts) : OwnedBy ts ms := by
  intro t ht
  obtain ⟨u, hu, rfl⟩ := h.exists_accepts ht
  exact hu

lemma OwnedBy.mono {ms ns : List Mark} (h : OwnedBy tokens ms) (hsub : ns ⊆ ms) : OwnedBy tokens ns :=
  fun t ht => h t (hsub ht)

lemma Expr.Derives.eval_points {rule : Rule} {d : ℕ} {e : Expr} (h : e.Derives rule d)
    (how : OwnedBy tokens e.spelling) : e.eval.StopsBy (Trouble.PointsInto tokens) := by
  induction h with
  | literal v => exact .pure trivial
  | name hk => exact Eval.read_points (how _ (.head _)) hk
  | group _ _ ih => exact ih (how.mono (by simp [Expr.spelling]))
  | primary _ ih | first _ _ ih | level _ ih | equality _ ih => exact ih how
  | unary _ _ _ ih =>
    rw [Expr.eval]
    exact (ih (how.mono (List.subset_cons_self _ _))).bind fun v _ =>
      Eval.ofExcept_stopsBy fun t => applyUnary_points (how _ (.head _))
  | link _ hop _ _ ihl ihr =>
    have hl := ihl (how.mono (List.subset_append_left _ _))
    have hr := ihr (how.mono (by simp [Expr.spelling]))
    rw [Expr.eval]
    exact hl.bind fun a _ => hr.bind fun b _ =>
      Eval.ofExcept_stopsBy fun t => applyBinary_points (how _ (by simp [Expr.spelling])) hop
  | assign hk _ _ ih =>
    rw [Expr.eval]
    exact (ih (how.mono (by simp [Expr.spelling]))).bind fun v _ =>
      (Eval.assign_points (how _ (.head _)) hk v).bind fun _ _ => .pure trivial

namespace Stmt

lemma Derives.each_points {d : ℕ} {s : Stmt} (h : s.Derives d) (how : OwnedBy tokens s.spelling) :
    s.Each (·.eval.StopsBy (Trouble.PointsInto tokens)) := by
  induction h with
  | @block d body _ _ ih =>
    have hbody : OwnedBy tokens (spellingEach body) := how.mono (by simp [spelling])
    exact .block fun s hs => ih s hs (hbody.mono (spelling_subset_spellingEach hs))
  | expression h => exact .expression (h.eval_points (how.mono (by simp [spelling])))
  | print h => exact .print (h.eval_points (how.mono (by simp [spelling])))
  | var _ h =>
    refine .var ?_
    rintro e ⟨⟩
    exact (h e rfl).eval_points (how.mono fun t ht => by simp [spelling, initSpelling, ht])

end Stmt

variable {δ : Type} [Device δ]

lemma interpret_points {statements : List Stmt}
    (h : ∀ s ∈ statements, s.Each (·.eval.StopsBy (Trouble.PointsInto tokens))) :
    Exec.KeepsSink (δ := δ) (fun _ => True) (interpret statements) (Trouble.PointsInto tokens) := by
  have hsink (context : InternalFault.Context) (request : EStateM String (Sink δ) Unit) :
      Exec.KeepsSink (fun _ => True) (Exec.toSink context request) (Trouble.PointsInto tokens) := by
    refine Exec.toSink_keepsSink ⟨fun s _ => ?_⟩
    unfold Ends
    cases request s with
    | ok _ _ => exact ⟨trivial, trivial⟩
    | error _ _ => exact ⟨trivial, .internal _⟩
  exact interpret_keepsSink (fun _ => hsink _ _) (hsink _ _) h

lemma Parsed.each_points {parsed : Parsed} (h : ofTokens tokens = .ok parsed) :
    ∀ s ∈ parsed.statements, s.Each (·.eval.StopsBy (Trouble.PointsInto tokens)) := by
  obtain ⟨hd, ts, t, rest, rfl, -, -, us, hsub, hspells, -⟩ := ofTokens_ok h
  intro s hs
  apply (hd s hs).each_points
  intro u hu
  have hus := hspells.ownedBy u (Stmt.spelling_subset_spellingEach hs hu)
  exact List.mem_append_left _ (hsub.subset hus)

namespace Session

seal Ends

lemma exists_interpret_points {parsed : Parsed} (hp : Parsed.ofTokens tokens = .ok parsed) (s : Session δ) :
    ∃ runtime : List Diagnostic, ((interpret parsed.statements).after s).reported = s.reported ++ runtime ∧
      (∀ fault s', interpret parsed.statements s = .error (.runtime fault) s' →
        runtime = [.ofRuntime fault] ∧ fault.PointsInto tokens) ∧
      ((∀ fault s', interpret parsed.statements s ≠ .error (.runtime fault) s') → runtime = []) := by
  have hi := run_interpret parsed.statements s
  have hpoints := (interpret_points (Parsed.each_points hp)).ends s.machine trivial
  rw [Action.after]
  cases hr : Lox.interpret parsed.statements s.machine with
  | ok _ m =>
    rw [hi.ok hr]
    refine ⟨[], Array.appendList_nil.symm, fun _ _ h => ?_, fun _ => rfl⟩
    cases h
  | error t m =>
    rw [hi.stop hr]
    refine ⟨t.diagnostics, rfl, fun fault s' h => ?_, fun hnone => ?_⟩
    · cases t with
      | runtime _ =>
        cases h
        exact ⟨rfl, (hpoints.stop hr).2 fault rfl⟩
      | internal _ => cases h
    · cases t with
      | runtime fault => exact absurd rfl (hnone fault _)
      | internal _ => rfl

theorem run_faults_point_at_tokens (source : String) (s : Session δ) :
    ∃ (result : Scan) (parsed : Parsed) (runtime : List Diagnostic), Lox.scan source = .ok result ∧
      Parsed.ofTokens result.tokens = .ok parsed ∧
      ((run source).after s).reported = s.reported ++ result.faults.map Diagnostic.ofLexical ++
        parsed.faults.map Diagnostic.ofSyntax ++ runtime ∧
      (∀ f ∈ parsed.faults, f.PointsInto result.tokens) ∧
      (∀ fault s', run source s = .error (.runtime fault) s' → runtime = [.ofRuntime fault] ∧
        fault.PointsInto result.tokens) ∧
      ((∀ fault s', run source s ≠ .error (.runtime fault) s') → runtime = []) := by
  obtain ⟨parsed, hp⟩ := exists_parsed source
  have hfaults := Parsed.pointsInto hp
  rw [Action.after]
  cases hf : (s.compiled source parsed).unitFailure? with
  | some failure =>
    have hcode := exitCode_unitFailure? hf
    rw [run_eq_error hp hf]
    refine ⟨_, parsed, [], scan_eq source, hp, Array.appendList_nil.symm, hfaults, fun fault s' h => ?_, fun _ => rfl⟩
    cases h
    cases hcode
  | none =>
    obtain ⟨runtime, hreported, hpoints, hnone⟩ := exists_interpret_points hp (s.compiled source parsed)
    rw [run_eq_interpret hp hf]
    exact ⟨_, parsed, runtime, scan_eq source, hp, hreported, hfaults, hpoints, hnone⟩

def unknownName : String :=
  -- The unknown name stands on the third line.
  "var a;\n\x7b print a ==\n  b; \x7d"

theorem run_faults_point_at_tokens_unknownName :
    ∃ result s', Lox.scan unknownName = .ok result ∧
      run unknownName (.start .unlimited) = .error (.runtime ⟨.undefinedVariable "b", 3, "b"⟩) s' ∧
      RuntimeFault.PointsInto result.tokens ⟨.undefinedVariable "b", 3, "b"⟩ := by
  have hfails : (run unknownName).failure? (.start .unlimited) =
      some (.runtime ⟨.undefinedVariable "b", 3, "b"⟩) := by decide +kernel
  obtain ⟨s', hrun⟩ := Action.failure?_eq_some.mp hfails
  obtain ⟨result, _, _, hscan, -, -, -, hpoints, -⟩ := run_faults_point_at_tokens unknownName (.start .unlimited)
  exact ⟨result, s', hscan, hrun, (hpoints _ s' hrun).2⟩

end Session

end Lox
