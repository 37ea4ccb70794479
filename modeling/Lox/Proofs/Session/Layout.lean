import Lox.Proofs.Parse.Lines
import Lox.Proofs.Session.Units

namespace Lox

def Diagnostic.content (d : Diagnostic) : Diagnostic.Phase × String :=
  (d.phase, d.message)

def Failure.SameButLine : Failure → Failure → Prop
  | .runtime fault, .runtime fault' => fault.kind = fault'.kind ∧ fault.lexeme = fault'.lexeme
  | .internal fault, .internal fault' => fault.mapLine oneLine = fault'.mapLine oneLine
  | failure, failure' => failure = failure'

lemma tokens_onOneLine {ts us : List Token} (h : ts.map Token.content = us.map Token.content) :
    ts.map (Token.mapLine oneLine) = us.map (Token.mapLine oneLine) := by
  have hcontent (t : Token) : t.mapLine oneLine = ⟨t.content.1, t.content.2, 1⟩ := rfl
  have hmap := congrArg (List.map fun c : Token.Kind × String => (⟨c.1, c.2, 1⟩ : Token)) h
  simpa only [List.map_map, Function.comp_def, ← hcontent] using hmap

lemma Parsed.onOneLine {ts us : List Token} {P Q : Parsed} (h : ts.map Token.content = us.map Token.content)
    (hP : ofTokens ts = .ok P) (hQ : ofTokens us = .ok Q) : P.mapLine oneLine = Q.mapLine oneLine := by
  have hmoved := ofTokens_mapLine (f := oneLine) hP
  rw [tokens_onOneLine h, ofTokens_mapLine hQ] at hmoved
  exact (Except.ok.inj hmoved).symm

lemma SyntaxFault.content_onOneLine {fs gs : List SyntaxFault}
    (h : fs.map (SyntaxFault.mapLine oneLine) = gs.map (SyntaxFault.mapLine oneLine)) :
    (fs.map Diagnostic.ofSyntax).map Diagnostic.content = (gs.map Diagnostic.ofSyntax).map Diagnostic.content := by
  have hcontent : Diagnostic.content ∘ Diagnostic.ofSyntax =
      (Diagnostic.content ∘ Diagnostic.ofSyntax) ∘ SyntaxFault.mapLine oneLine := rfl
  rw [List.map_map, List.map_map, hcontent, ← List.map_map, h, List.map_map]

variable {δ : Type} [Device δ]

lemma interpret_onOneLine {P Q : List Stmt} (h : Stmt.mapLineEach oneLine P = Stmt.mapLineEach oneLine Q) :
    Agrees (Machine.Alike (δ := δ)) Eq (fun t u => t.mapLine oneLine = u.mapLine oneLine) (interpret P)
      (interpret Q) := by
  have hP := interpret_moved (δ := δ) (f := oneLine) P
  have hQ := (interpret_moved (δ := δ) (f := oneLine) Q).symm
  rw [h] at hP
  apply (hP.trans hQ).congr
  · exact fun m n => ⟨fun ⟨_, hm, hn⟩ => hm.trans hn.symm, fun hm => ⟨n, hm, rfl, rfl⟩⟩
  · exact fun _ _ _ => rfl
  · rintro t u ⟨_, ht, hu⟩
    exact ht.symm.trans hu

lemma Trouble.sameButLine {t u : Trouble} (h : t.mapLine oneLine = u.mapLine oneLine) :
    t.toFailure.SameButLine u.toFailure ∧
      t.diagnostics.map Diagnostic.content = u.diagnostics.map Diagnostic.content := by
  cases t with
  | runtime fault =>
    cases u with
    | runtime fault' =>
      have hfault : fault.mapLine oneLine = fault'.mapLine oneLine := Trouble.runtime.inj h
      obtain ⟨hkind, -, hlexeme⟩ := RuntimeFault.mk.inj hfault
      have hmessage : fault.message = fault'.message := by rw [RuntimeFault.message, hkind, RuntimeFault.message]
      refine ⟨⟨hkind, hlexeme⟩, ?_⟩
      simp only [diagnostics, List.map_cons, List.map_nil, Diagnostic.content, Diagnostic.ofRuntime, hmessage]
    | internal fault' => cases h
  | internal fault =>
    cases u with
    | runtime fault' => cases h
    | internal fault' => exact ⟨Trouble.internal.inj h, rfl⟩

namespace Session

seal Ends

/-- The ends of two runs that began at `s` and `s'`. They are the same, and so is what was reported meanwhile, but for
lines. -/
inductive SameButLines (s s' : Session δ) : (r r' : EStateM.Result Failure (Session δ) Unit) → Prop
  | ok {t t' : Session δ} : t.machine.Alike t'.machine → t.hadError = t'.hadError → t.reported = s.reported →
      t'.reported = s'.reported → SameButLines s s' (.ok () t) (.ok () t')
  | stop {failure failure' : Failure} {t t' : Session δ} {new new' : List Diagnostic} :
      failure.SameButLine failure' → t.machine.Alike t'.machine → t.hadError = t'.hadError →
      t.reported = s.reported ++ new → t'.reported = s'.reported ++ new' →
      new.map Diagnostic.content = new'.map Diagnostic.content →
      SameButLines s s' (.error failure t) (.error failure' t')

section

variable {p q : String} {P Q : Parsed} {s s' : Session δ} (hp : (scanned p).faults = [])
  (hq : (scanned q).faults = []) (hP : Parsed.ofTokens (scanned p).tokens = .ok P)
  (hQ : Parsed.ofTokens (scanned q).tokens = .ok Q) (hPQ : P.mapLine oneLine = Q.mapLine oneLine)
  (hs : s.machine.Alike s'.machine)

include hp hq hP hQ hPQ hs

lemma sameButLines_of_faults (hfaults : P.faults ≠ []) : SameButLines s s' (run p s) (run q s') := by
  have hmoved : P.faults.map (SyntaxFault.mapLine oneLine) = Q.faults.map (SyntaxFault.mapLine oneLine) :=
    congrArg Parsed.faults hPQ
  have hlength : P.faults.length = Q.faults.length := by simpa using congrArg List.length hmoved
  have hpos : 0 < P.faults.length := List.length_pos_iff.mpr hfaults
  have hfail : (s.compiled p P).unitFailure? = some (.syntactic P.faults.length) := by
    simp [unitFailure?, compiled, hp, hpos]
  have hfail' : (s'.compiled q Q).unitFailure? = some (.syntactic P.faults.length) := by
    simp [unitFailure?, compiled, hq, ← hlength, hpos]
  rw [run_eq hP, run_eq hQ, hfail, hfail']
  refine .stop rfl ?_ ?_ ?_ ?_ (SyntaxFault.content_onOneLine hmoved)
  · exact ((alike_compiled p P s).symm.trans hs).trans (alike_compiled q Q s')
  · simp [hadError, compiled, hp, hq, hlength]
  · simp [compiled, hp]
  · simp [compiled, hq]

lemma sameButLines_of_clean (hfaults : P.faults = []) : SameButLines s s' (run p s) (run q s') := by
  have hmoved : P.faults.map (SyntaxFault.mapLine oneLine) = Q.faults.map (SyntaxFault.mapLine oneLine) :=
    congrArg Parsed.faults hPQ
  have hfaults' : Q.faults = [] := by
    rw [hfaults] at hmoved
    exact List.map_eq_nil_iff.mp hmoved.symm
  have hrun := ends_run hP (by simp [hp, hfaults]) s
  have hrun' := ends_run hQ (by simp [hq, hfaults']) s'
  have hsame := (interpret_onOneLine (congrArg Parsed.statements hPQ)).ends _ _ hs
  cases hr : Lox.interpret P.statements s.machine with
  | ok _ m =>
    obtain ⟨_, m', hr', -, hm⟩ := hsame.ok hr
    obtain ⟨t, ht, halike, hreported, hclean⟩ := hrun.ok hr
    obtain ⟨t', ht', halike', hreported', hclean'⟩ := hrun'.ok hr'
    rw [ht, ht']
    exact .ok ((halike.trans hm).trans halike'.symm) (hclean.trans hclean'.symm) hreported hreported'
  | error e m =>
    obtain ⟨e', m', hr', he, hm⟩ := hsame.stop hr
    obtain ⟨t, ht, halike, hreported, hclean⟩ := hrun.stop hr
    obtain ⟨t', ht', halike', hreported', hclean'⟩ := hrun'.stop hr'
    obtain ⟨hfailure, hnew⟩ := Trouble.sameButLine he
    rw [ht, ht']
    exact .stop hfailure ((halike.trans hm).trans halike'.symm) (hclean.trans hclean'.symm) hreported hreported' hnew

end

theorem run_layout (p q : String) (ts us : List Token) (hp : Lox.scan p = .ok ⟨ts, []⟩) (hq : Lox.scan q = .ok ⟨us, []⟩)
    (htokens : ts.map Token.content = us.map Token.content) (s s' : Session δ)
    (hs : s.machine.Alike s'.machine) : SameButLines s s' (run p s) (run q s') := by
  have hp := Except.ok.inj ((scan_eq p).symm.trans hp)
  have hq := Except.ok.inj ((scan_eq q).symm.trans hq)
  obtain ⟨P, hP⟩ := exists_parsed p
  obtain ⟨Q, hQ⟩ := exists_parsed q
  have hPQ : P.mapLine oneLine = Q.mapLine oneLine := by
    refine Parsed.onOneLine ?_ hP hQ
    rwa [hp, hq]
  have hpf : (scanned p).faults = [] := congrArg Scan.faults hp
  have hqf : (scanned q).faults = [] := congrArg Scan.faults hq
  by_cases hfaults : P.faults = []
  · exact sameButLines_of_clean hpf hqf hP hQ hPQ hs hfaults
  · exact sameButLines_of_faults hpf hqf hP hQ hPQ hs hfaults

def spread : String :=
  -- A comment and a newline more than in `dense`, so that the fault lies on another line.
  "var a; // nothing\n\x7b print a;\n\tprint -a; \x7d"

def dense : String :=
  "var a;\x7bprint a;print-a;\x7d"

theorem run_layout_spread :
    ∃ ts us, Lox.scan spread = .ok ⟨ts, []⟩ ∧ Lox.scan dense = .ok ⟨us, []⟩ ∧ ts ≠ us ∧
      ts.map Token.content = us.map Token.content ∧
      SameButLines (.start .unlimited) (.start .unlimited) (run spread (.start .unlimited))
        (run dense (.start .unlimited)) := by
  have hclean : (Lox.scan spread).map Scan.faults = .ok [] ∧ (Lox.scan dense).map Scan.faults = .ok [] := by
    decide +kernel
  have hlines : (Lox.scan spread).map Scan.tokens ≠ (Lox.scan dense).map Scan.tokens := by decide +kernel
  have hcontents : (Lox.scan spread).map (·.tokens.map Token.content) =
      (Lox.scan dense).map (·.tokens.map Token.content) := by decide +kernel
  obtain ⟨⟨ts, fs⟩, hs⟩ : ∃ s, Lox.scan spread = .ok s := ⟨_, scan_eq spread⟩
  obtain ⟨⟨us, gs⟩, hd⟩ : ∃ s, Lox.scan dense = .ok s := ⟨_, scan_eq dense⟩
  rw [hs, hd] at hclean hlines hcontents
  obtain rfl : fs = [] := Except.ok.inj hclean.1
  obtain rfl : gs = [] := Except.ok.inj hclean.2
  have htokens : ts.map Token.content = us.map Token.content := Except.ok.inj hcontents
  have hne : ts ≠ us := fun h => hlines (congrArg Except.ok h)
  exact ⟨ts, us, hs, hd, hne, htokens, run_layout spread dense ts us hs hd htokens _ _ ⟨rfl, rfl⟩⟩

end Session

end Lox
