import Lox.Proofs.Parse.RoundTrip
import Lox.Proofs.Scan.Join
import Lox.Proofs.Session.Units

/-! Units without faults joined by newlines. Running the whole is running them one after the other, and a fault that
stops the run lies as many lines further down as the units before it take. -/

namespace Lox

def Compiles (source : String) (program : List Stmt) : Prop :=
  ∃ tokens, scan source = .ok ⟨tokens, []⟩ ∧ Parsed.ofTokens tokens = .ok ⟨program, []⟩

def Clean (source : String) : Prop :=
  ∃ program, Compiles source program

namespace Compiles

variable {p q : String} {P Q : List Stmt}

lemma faults_eq_nil (h : Compiles p P) : (scanned p).faults = [] := by
  obtain ⟨tokens, hscan, -⟩ := h
  rw [Except.ok.inj ((scan_eq p).symm.trans hscan)]

lemma parsed (h : Compiles p P) : Parsed.ofTokens (scanned p).tokens = .ok ⟨P, []⟩ := by
  obtain ⟨tokens, hscan, hparsed⟩ := h
  rwa [Except.ok.inj ((scan_eq p).symm.trans hscan)]

lemma of_scanned (hfaults : (scanned p).faults = [])
    (hparsed : Parsed.ofTokens (scanned p).tokens = .ok ⟨P, []⟩) : Compiles p P :=
  ⟨(scanned p).tokens, by rw [scan_eq, ← hfaults], hparsed⟩

lemma derives (h : Compiles p P) : ∀ s ∈ P, s.Derives 0 :=
  (Parsed.ofTokens_ok h.parsed).1

lemma each_stopsBy (h : Compiles p P) : ∀ s ∈ P, s.Each (·.eval.StopsBy Trouble.IsRuntime) :=
  fun s hs => (h.derives s hs).each fun _ _ he => he.eval_stopsBy

lemma exists_spells (h : Compiles p P) :
    ∃ front line, (scanned p).tokens = front ++ [Token.endAt line] ∧ Spells (Stmt.spellingEach P) front := by
  obtain ⟨front, line, htokens, hfront⟩ := exists_scanned_tokens p
  obtain ⟨-, ts, t, rest, hts, he, hn, us, -, hs, hi⟩ := Parsed.ofTokens_ok h.parsed
  rw [htokens] at hts
  obtain rfl := Parsed.eq_of_append_end hn hfront he hts
  -- There is no fault, so no token was lost.
  obtain rfl := hi.mpr rfl
  exact ⟨us, line, htokens, hs⟩

lemma join (hp : Compiles p P) (hq : Compiles q Q) :
    Compiles (p ++ "\n" ++ q) (P ++ Stmt.mapLineEach (· + linesOf p) Q) := by
  obtain ⟨ts, _, hts, hsp⟩ := hp.exists_spells
  obtain ⟨us, _, hus, hsq⟩ := hq.exists_spells
  have hclosed : ∀ f ∈ (scanned p).faults, f.kind ≠ .unterminatedString := by simp [hp.faults_eq_nil]
  apply of_scanned
  · rw [faults_join hclosed, hp.faults_eq_nil, hq.faults_eq_nil]
    rfl
  · rw [tokens_join hclosed, hts, hus, List.dropLast_concat, List.map_append, ← List.append_assoc]
    refine Parsed.ofTokens_of_spells _ ?_ ?_ rfl
    · intro s hs
      rw [List.mem_append, Stmt.mapLineEach_eq_map] at hs
      rcases hs with hs | hs
      · exact hp.derives s hs
      · obtain ⟨t, ht, rfl⟩ := List.mem_map.mp hs
        exact (hq.derives t ht).mapLine _
    · rw [Stmt.spellingEach_append, Stmt.spellingEach_mapLine]
      exact hsp.append (hsq.mapLine _)

end Compiles

lemma Clean.intercalate {units : List String} (h : ∀ u ∈ units, Clean u) : Clean ("\n".intercalate units) := by
  induction units with
  | nil => exact ⟨[], [Token.endAt 1], rfl, rfl⟩
  | cons p units ih =>
    obtain ⟨P, hp⟩ := h p (.head _)
    cases units with
    | nil =>
      rw [String.intercalate_singleton]
      exact ⟨P, hp⟩
    | cons q units =>
      obtain ⟨Q, hq⟩ := ih fun u hu => h u (.tail _ hu)
      rw [String.intercalate_cons_of_ne_nil (List.cons_ne_nil q units)]
      exact ⟨_, hp.join hq⟩

variable {δ : Type} [Device δ]

lemma Stmt.execAll_append (P Q : List Stmt) : execAll (P ++ Q) = (do execAll P; execAll Q : Exec δ Unit) := by
  induction P with
  | nil =>
    rw [List.nil_append, execAll]
    exact (pure_bind _ _).symm
  | cons s P ih => simp only [List.cons_append, execAll, ih, bind_assoc]

/-- Reliable sinks that hold the same text. Their devices may differ, as one that counts how often it was flushed. -/
structure Sink.SameText (s t : Sink δ) : Prop where
  written : s.written = t.written
  reliable : s.Reliable
  reliable_right : t.Reliable

namespace Sink.SameText

variable {s t u : Sink δ}

lemma refl (h : s.Reliable) : s.SameText s :=
  ⟨rfl, h, h⟩

lemma symm (h : s.SameText t) : t.SameText s :=
  ⟨h.written.symm, h.reliable_right, h.reliable⟩

lemma trans (h : s.SameText t) (h' : t.SameText u) : s.SameText u :=
  ⟨h.written.trans h'.written, h.reliable, h'.reliable_right⟩

end Sink.SameText

lemma Sink.answersAlike_sameText : AnswersAlike (SameText (δ := δ)) where
  write bytes := by
    refine ⟨fun s t h => ?_⟩
    obtain ⟨s', hs, hs', hwritten⟩ := h.reliable.exists_write bytes
    obtain ⟨t', ht, ht', hwritten'⟩ := h.reliable_right.exists_write bytes
    exact ends_of_ok hs ⟨(), t', ht, rfl, by rw [hwritten, hwritten', h.written], hs', ht'⟩
  flush := by
    refine ⟨fun s t h => ?_⟩
    obtain ⟨s', hs, hs', hwritten⟩ := h.reliable.exists_flush
    obtain ⟨t', ht, ht', hwritten'⟩ := h.reliable_right.exists_flush
    exact ends_of_ok hs ⟨(), t', ht, rfl, by rw [hwritten, hwritten', h.written], hs', ht'⟩

abbrev Machine.GoesOnLike : Machine δ → Machine δ → Prop :=
  AlikeUpTo Sink.SameText

namespace Machine.GoesOnLike

variable {m n o : Machine δ}

lemma trans (h : m.GoesOnLike n) (h' : n.GoesOnLike o) : m.GoesOnLike o :=
  ⟨h.scopes.trans h'.scopes, h.sink.trans h'.sink⟩

lemma of_alike (h : m.Alike n) (hm : m.sink.Reliable) : m.GoesOnLike n :=
  ⟨h.scopes, h.sink ▸ .refl hm⟩

lemma congr {m' n' : Machine δ} (h : m.GoesOnLike n) (hm : m'.Alike m) (hn : n'.Alike n) : m'.GoesOnLike n' :=
  ⟨hm.scopes.trans (h.scopes.trans hn.scopes.symm), by rw [hm.sink, hn.sink]; exact h.sink⟩

end Machine.GoesOnLike

lemma Exec.exists_flush {m : Machine δ} (hm : m.sink.Reliable) : ∃ n, flush m = .ok () n ∧ n.GoesOnLike m := by
  obtain ⟨t, hflush, ht, hwritten⟩ := hm.exists_flush
  exact ⟨_, toSink_ok hflush, rfl, hwritten, ht, hm⟩

lemma interpret_append {stop : Trouble → Prop} {P : List Stmt} (hP : ∀ s ∈ P, s.Each (·.eval.StopsBy stop))
    (Q : List Stmt) {m : Machine δ} (hm : m.sink.Reliable) :
    Ends (interpret P) m
      (fun _ n => ∃ n', n.GoesOnLike n' ∧ interpret (P ++ Q) m = (do Stmt.execAll Q; Exec.flush) n')
      (fun t n => ∃ n', n.GoesOnLike n' ∧ interpret (P ++ Q) m = .error t n') := by
  have hpart : interpret P m = (do Stmt.execAll P; Exec.flush) (m.note (.interpreting P.length)) := rfl
  have hwhole : interpret (P ++ Q) m = (do Stmt.execAll P; Stmt.execAll Q; Exec.flush)
      (m.note (.interpreting (P ++ Q).length)) := by
    rw [interpret, Stmt.execAll_append, bind_assoc]
    rfl
  have hkeeps := (Stmt.execAll_stopsBy hP).ends (m.note (.interpreting P.length)) hm
  -- The two runs tell the journal different numbers of statements, and agree in all else.
  have halike := (Stmt.execAll_alike P).ends (m.note (.interpreting P.length))
    (m.note (.interpreting (P ++ Q).length)) ⟨rfl, rfl⟩
  cases hr : Stmt.execAll P (m.note (.interpreting P.length)) with
  | ok _ n =>
    obtain ⟨_, n', hq, -, hn⟩ := halike.ok hr
    obtain ⟨o, hflush, ho⟩ := Exec.exists_flush (hkeeps.ok hr).1
    rw [bind_eq_of_ok hr, hflush] at hpart
    rw [bind_eq_of_ok hq] at hwhole
    exact ends_of_ok hpart ⟨n', ho.trans (.of_alike hn (hkeeps.ok hr).1), hwhole⟩
  | error t n =>
    obtain ⟨_, n', hq, rfl, hn⟩ := halike.stop hr
    rw [bind_eq_of_error hr] at hpart
    rw [bind_eq_of_error hq] at hwhole
    exact ends_of_error hpart ⟨n', .of_alike hn (hkeeps.stop hr).1, hwhole⟩

lemma continued_moved (f : ℕ → ℕ) (Q : List Stmt) :
    Agrees (Machine.GoesOnLike (δ := δ)) Eq (Trouble.Moved f) (interpret Q)
      (do Stmt.execAll (Stmt.mapLineEach f Q); Exec.flush) := by
  have hall := Stmt.execAll_moved (f := f) (Sink.answersAlike_sameText (δ := δ)) Q
  have hflush := Exec.toSink_moved (f := f) (Sink.answersAlike_sameText (δ := δ)).flush .flushing
  exact ⟨fun m n h => (hall.bind fun _ _ _ => hflush).ends (m.note _) n ⟨h.scopes, h.sink⟩⟩

namespace Session

-- How a run ends is known from its lemmas; nothing here computes it.
seal Ends

/-- The ends of two runs, which are the same but for the line of a runtime fault: the second has it, as also in what
it reports to `s`, `k` lines further down. -/
inductive SameEnd (k : ℕ) (s : Session δ) : (r r' : EStateM.Result Failure (Session δ) Unit) → Prop
  | ok {t t' : Session δ} : t.machine.GoesOnLike t'.machine → t.reported = s.reported → t'.reported = s.reported →
      SameEnd k s (.ok () t) (.ok () t')
  | stop {fault : RuntimeFault} {t t' : Session δ} : t.machine.GoesOnLike t'.machine →
      t.reported = s.reported.push (.ofRuntime fault) →
      t'.reported = s.reported.push (.ofRuntime (fault.mapLine (· + k))) →
      SameEnd k s (.error (.runtime fault) t) (.error (.runtime (fault.mapLine (· + k))) t')

namespace SameEnd

variable {k : ℕ} {s : Session δ}

lemma of_interpret {u w : String} {U W : List Stmt} (hu : Compiles u U) (hw : Compiles w W) {t : Session δ}
    (ht : t.Reliable) (hreported : t.reported = s.reported)
    (h : Ends (Lox.interpret U) t.machine (fun _ m => ∃ n, m.GoesOnLike n ∧ Lox.interpret W s.machine = .ok () n)
      (fun e m => ∃ n, m.GoesOnLike n ∧ Lox.interpret W s.machine = .error (e.mapLine (· + k)) n)) :
    SameEnd k s (run u t) (run w s) := by
  have hunit := ends_run hu.parsed (by simp [hu.faults_eq_nil]) t
  have hwhole := ends_run hw.parsed (by simp [hw.faults_eq_nil]) s
  have hruntime := (interpret_stopsBy hu.each_stopsBy).ends t.machine ht
  cases hr : Lox.interpret U t.machine with
  | ok _ m =>
    obtain ⟨n, hn, hq⟩ := h.ok hr
    obtain ⟨t', hrun, hm, hreport, -⟩ := hunit.ok hr
    obtain ⟨s', hrun', hm', hreport', -⟩ := hwhole.ok hq
    rw [hrun, hrun']
    exact .ok (hn.congr hm hm') (hreport.trans hreported) hreport'
  | error e m =>
    obtain ⟨fault, rfl⟩ := (hruntime.stop hr).2
    obtain ⟨n, hn, hq⟩ := h.stop hr
    obtain ⟨t', hrun, hm, hreport, -⟩ := hunit.stop hr
    obtain ⟨s', hrun', hm', hreport', -⟩ := hwhole.stop hq
    rw [hrun, hrun']
    refine .stop (hn.congr hm hm') ?_ ?_
    · simp [hreport, hreported, Trouble.diagnostics]
    · simp [hreport', Trouble.diagnostics, Trouble.mapLine]

lemma of_ok {j : ℕ} {t : Session δ} {r : EStateM.Result Failure (Session δ) Unit} (h : SameEnd j s (.ok () t) r) :
    SameEnd k s (.ok () t) r := by
  cases h with
  | ok hm hr hr' => exact .ok hm hr hr'

lemma trans {j : ℕ} {t : Session δ} {r r' r'' : EStateM.Result Failure (Session δ) Unit} (h : SameEnd j t r r')
    (h' : SameEnd k s r' r'') (ht : t.reported = s.reported) : SameEnd (j + k) s r r'' := by
  cases h with
  | ok hm hr =>
    cases h' with
    | ok hm' _ hr' => exact .ok (hm.trans hm') (hr.trans ht) hr'
  | @stop fault _ _ hm hr =>
    cases h' with
    | stop hm' _ hr' =>
      have hline : (fault.mapLine (· + j)).mapLine (· + k) = fault.mapLine (· + (j + k)) := by
        simp [RuntimeFault.mapLine, Nat.add_assoc]
      rw [hline] at hr' ⊢
      exact .stop (hm.trans hm') (ht ▸ hr) hr'

end SameEnd

variable {s : Session δ}

lemma ends_run_join {p q : String} {P Q : List Stmt} (hp : Compiles p P) (hq : Compiles q Q) (hs : s.Reliable) :
    Ends (run p) s
      (fun _ t => t.Reliable ∧ t.reported = s.reported ∧
        SameEnd (linesOf p) s (run q t) (run (p ++ "\n" ++ q) s))
      (fun failure t => SameEnd 0 s (.error failure t) (run (p ++ "\n" ++ q) s)) := by
  have hunit := ends_run hp.parsed (by simp [hp.faults_eq_nil]) s
  have hwhole := interpret_append hp.each_stopsBy (Stmt.mapLineEach (· + linesOf p) Q) hs
  cases hr : Lox.interpret P s.machine with
  | ok _ m =>
    obtain ⟨t, hrun, hm, hreported, -⟩ := hunit.ok hr
    obtain ⟨n, hn, hcontinued⟩ := hwhole.ok hr
    have ht : t.Reliable := (((run_keeps p).ends s hs).ok hrun).1
    refine ends_of_ok hrun ⟨ht, hreported, .of_interpret hq (hp.join hq) ht hreported ?_⟩
    rw [hcontinued]
    apply ((continued_moved (· + linesOf p) Q).ends t.machine n (hn.congr hm ⟨rfl, rfl⟩)).mono
    · rintro _ m' ⟨_, n', hn', -, hm'⟩
      exact ⟨n', hm', hn'⟩
    · rintro e m' ⟨_, n', hn', rfl, hm'⟩
      exact ⟨n', hm', hn'⟩
  | error e m =>
    obtain ⟨t, hrun, -⟩ := hunit.stop hr
    obtain ⟨n, hn, hstopped⟩ := hwhole.stop hr
    have hsame : SameEnd 0 s (run p s) (run (p ++ "\n" ++ q) s) :=
      .of_interpret hp (hp.join hq) hs rfl (ends_of_error hr ⟨n, hn, by rw [e.mapLine_zero, hstopped]⟩)
    rw [hrun] at hsame
    exact ends_of_error hrun hsame

lemma sameEnd_run_self {p : String} {P : List Stmt} (hp : Compiles p P) (hs : s.Reliable) :
    SameEnd 0 s (run p s) (run p s) := by
  have hkeeps := (interpret_stopsBy hp.each_stopsBy).ends s.machine hs
  refine .of_interpret hp hp hs rfl ?_
  cases hr : Lox.interpret P s.machine with
  | ok _ m => exact ends_of_ok hr ⟨m, ⟨rfl, .refl (hkeeps.ok hr).1⟩, rfl⟩
  | error e m => exact ends_of_error hr ⟨m, ⟨rfl, .refl (hkeeps.stop hr).1⟩, by rw [e.mapLine_zero]⟩

lemma sameEnd_run_empty (hs : s.Reliable) : SameEnd 0 s (.ok () s) (run "" s) := by
  have hempty : Compiles "" [] := ⟨[Token.endAt 1], rfl, rfl⟩
  obtain ⟨m, hflush, hm⟩ := Exec.exists_flush (m := s.machine.note (.interpreting 0)) hs
  have hinterpret : Lox.interpret [] s.machine = .ok () m := hflush
  obtain ⟨t, hrun, ht, hreported, -⟩ := (ends_run hempty.parsed (by simp [hempty.faults_eq_nil]) s).ok hinterpret
  rw [hrun]
  exact .ok ⟨hm.scopes.symm.trans ht.scopes.symm, ht.sink ▸ hm.sink.symm⟩ rfl hreported

lemma ends_forM_run {units : List String} (h : ∀ u ∈ units, Clean u) (hs : s.Reliable) :
    Ends (forM units run) s (fun _ t => SameEnd 0 s (.ok () t) (run ("\n".intercalate units) s))
      (fun failure t => ∃ done unit rest s₁, units = done ++ unit :: rest ∧ forM done run s = .ok () s₁ ∧
        run unit s₁ = .error failure t ∧
        SameEnd (done.map linesOf).sum s (.error failure t) (run ("\n".intercalate units) s)) := by
  induction units generalizing s with
  | nil => exact ends_of_ok rfl (sameEnd_run_empty hs)
  | cons p units ih =>
    obtain ⟨P, hp⟩ := h p (.head _)
    have hrest : ∀ u ∈ units, Clean u := fun u hu => h u (.tail _ hu)
    rw [List.forM_cons]
    cases units with
    | nil =>
      have hself := sameEnd_run_self hp hs
      rw [String.intercalate_singleton]
      cases hrun : run p s with
      | ok _ t =>
        rw [hrun] at hself
        exact ends_of_ok (bind_eq_of_ok hrun) hself
      | error failure t =>
        rw [hrun] at hself
        exact ends_of_error (bind_eq_of_error hrun) ⟨[], p, [], s, rfl, rfl, hrun, hself⟩
    | cons q units =>
      obtain ⟨Q, hq⟩ := Clean.intercalate hrest
      have hjoin := ends_run_join hp hq hs
      rw [String.intercalate_cons_of_ne_nil (List.cons_ne_nil q units)]
      cases hrun : run p s with
      | ok _ t =>
        obtain ⟨ht, hreported, hsame⟩ := hjoin.ok hrun
        rw [ends_bind]
        refine ends_of_ok hrun ((ih hrest ht).mono ?_ ?_)
        · intro _ t' hthen
          exact (hthen.trans hsame hreported).of_ok
        · rintro failure t' ⟨done, unit, rest, s₁, hunits, hdone, hunit, hthen⟩
          refine ⟨p :: done, unit, rest, s₁, by rw [hunits, List.cons_append], ?_, hunit, ?_⟩
          · rw [List.forM_cons, bind_eq_of_ok hrun, hdone]
          · rw [List.map_cons, List.sum_cons, Nat.add_comm]
            exact hthen.trans hsame hreported
      | error failure t =>
        exact ends_of_error (bind_eq_of_error hrun) ⟨[], p, q :: units, s, rfl, rfl, hrun, hjoin.stop hrun⟩

theorem run_join (s : Session δ) (hs : s.Reliable) :
    (∀ p q, Clean p → Clean q →
      Ends (run p) s (fun _ t => SameEnd (linesOf p) s (run q t) (run (p ++ "\n" ++ q) s))
        (fun failure t => SameEnd 0 s (.error failure t) (run (p ++ "\n" ++ q) s))) ∧
      ∀ units, (∀ u ∈ units, Clean u) →
        Ends (forM units run) s (fun _ t => SameEnd 0 s (.ok () t) (run ("\n".intercalate units) s))
          (fun failure t => ∃ done unit rest s₁, units = done ++ unit :: rest ∧ forM done run s = .ok () s₁ ∧
            run unit s₁ = .error failure t ∧
            SameEnd (done.map linesOf).sum s (.error failure t) (run ("\n".intercalate units) s)) := by
  refine ⟨?_, fun units h => ends_forM_run h hs⟩
  rintro p q ⟨P, hp⟩ ⟨Q, hq⟩
  exact (ends_run_join hp hq hs).mono (fun _ _ h => h.2.2) fun _ _ h => h

def twoLines : String :=
  -- A string over two lines and a comment before the join.
  "var a = \"1\n2\"; // text"

def negation : String :=
  "print a;\na = -a;"

lemma compiles_of_run {source : String} {program : List Stmt}
    (h : ((Lox.scan source).toOption.map fun s => (s.faults, Parsed.ofTokens s.tokens)) =
      some ([], .ok ⟨program, []⟩)) : Compiles source program := by
  rw [scan_eq] at h
  obtain ⟨hfaults, hparsed⟩ := Prod.mk.inj (Option.some.inj h)
  exact .of_scanned hfaults hparsed

lemma clean_twoLines : Clean twoLines :=
  ⟨[.var ⟨.identifier "a", "a", 1⟩ (some (.literal (.string "1\n2")))], compiles_of_run (by decide +kernel)⟩

lemma clean_negation : Clean negation := by
  let a : Token := ⟨.identifier "a", "a", 2⟩
  refine ⟨[.print (.variable ⟨.identifier "a", "a", 1⟩),
    .expression (.assign a (.unary ⟨.symbol .minus, "-", 2⟩ (.variable a)))], compiles_of_run ?_⟩
  decide +kernel

theorem run_join_twoLines :
    (Session.start .unlimited).Reliable ∧ Clean twoLines ∧ Clean negation ∧ linesOf twoLines = 2 ∧
      Ends (run twoLines) (.start .unlimited)
        (fun _ t => SameEnd (linesOf twoLines) (.start .unlimited) (run negation t)
          (run (twoLines ++ "\n" ++ negation) (.start .unlimited)))
        (fun failure t => SameEnd 0 (.start .unlimited) (.error failure t)
          (run (twoLines ++ "\n" ++ negation) (.start .unlimited))) := by
  have hs : (Session.start .unlimited).Reliable := Sink.reliable_unlimited
  refine ⟨hs, clean_twoLines, clean_negation, by decide +kernel, ?_⟩
  exact (run_join (.start .unlimited) hs).1 twoLines negation clean_twoLines clean_negation

end Session

end Lox
