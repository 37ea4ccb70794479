import Lox.Proofs.Parse.Locality
import Lox.Proofs.Parse.Lookahead

namespace Lox

def SyntaxFault.PointsInto (tokens : List Token) (f : SyntaxFault) : Prop :=
  ∃ t ∈ tokens, f = .ofToken f.kind t ∧ (f.kind = .invalidAssignmentTarget → t.kind = .symbol .equal) ∧
    (f.kind = .expectRightBrace → t.kind = .eof)

def Stop.PointsInto (tokens : List Token) : Stop → Prop
  | .fault f => f.PointsInto tokens
  | .internal _ => True

structure Cursor.Within (tokens : List Token) (c : Cursor) : Prop where
  rest : c.rest ⊆ tokens
  faults : ∀ f ∈ c.faults, f.PointsInto tokens

variable {α : Type} {tokens : List Token}

lemma Cursor.Within.later {c d : Cursor} (h : c.Within tokens) (hr : d.rest <:+ c.rest) (hf : d.faults = c.faults) :
    d.Within tokens :=
  ⟨fun _ ht => h.rest (hr.subset ht), hf ▸ h.faults⟩

lemma Cursor.Within.record {c : Cursor} {f : SyntaxFault} (h : c.Within tokens) (hf : f.PointsInto tokens) :
    Cursor.Within tokens { c with faults := f :: c.faults } :=
  ⟨h.rest, by simpa using ⟨hf, h.faults⟩⟩

namespace Parser

abbrev Points (tokens : List Token) (p : Parser α) (ok : α → Prop) : Prop :=
  Keeps (Cursor.Within tokens) p ok (Stop.PointsInto tokens)

lemma peek_points : Points tokens peek (· ∈ tokens) := by
  refine ⟨?_⟩
  rintro ⟨rest, n, fs⟩ hc
  cases rest with
  | nil => exact ⟨hc, trivial⟩
  | cons t rest => exact ⟨hc, hc.rest (.head _)⟩

lemma advance_points : Points tokens advance fun _ => True := by
  refine ⟨?_⟩
  rintro ⟨rest, n, fs⟩ hc
  cases rest with
  | nil => exact ⟨hc, trivial⟩
  | cons t rest =>
    refine ⟨?_, trivial⟩
    split
    · exact hc
    · exact hc.later (List.suffix_cons t rest) rfl

abbrev PointsOnly (tokens : List Token) (p : Parser α) : Prop :=
  Points tokens p fun _ => True

lemma ifNext_points {kinds : Token.Kind → Bool} {f : Token → Parser α} {p : Parser α}
    (hf : ∀ t ∈ tokens, kinds t.kind = true → PointsOnly tokens (f t)) (hp : PointsOnly tokens p) :
    PointsOnly tokens (ifNext kinds f p) := by
  refine ⟨fun c hc => ?_⟩
  rcases ifNext_cases kinds f p c with ⟨-, h⟩ | ⟨t, rest, hr, -, hk, h⟩
  · simpa only [Ends, h] using hp.ends c hc
  · have hmem : t ∈ tokens := hc.rest (by simp [hr])
    have hrun := (hf t hmem hk).ends { c with rest } (hc.later (hr ▸ List.suffix_cons t rest) rfl)
    simpa only [Ends, h] using hrun

lemma failHere_points {kind : SyntaxFault.Kind} (hk : Anywhere kind) (ok : α → Prop) :
    Points tokens (failHere kind) ok := by
  apply peek_points.bind
  intro t ht
  exact .throw ⟨t, ht, rfl, fun h => absurd h hk.1, fun h => absurd h hk.2⟩

lemma closing_points (s : Symbol) {kind : SyntaxFault.Kind} (hk : Anywhere kind) (a : α) :
    PointsOnly tokens (closing s kind a) :=
  ifNext_points (fun _ _ _ => .pure trivial) (failHere_points hk _)

lemma record_points {f : SyntaxFault} (hf : f.PointsInto tokens) : Points tokens (record f) fun _ => True :=
  ⟨fun _ hc => ⟨hc.record hf, trivial⟩⟩

lemma depth_points : Points tokens depth fun _ => True :=
  ⟨fun _ hc => ⟨hc, trivial⟩⟩

lemma setDepth_points (n : ℕ) : Points tokens (setDepth n) fun _ => True :=
  ⟨fun _ hc => ⟨⟨hc.rest, hc.faults⟩, trivial⟩⟩

lemma enter_points : Points tokens enter fun _ => True := by
  apply depth_points.bind
  intro n _
  split
  · exact failHere_points (by decide) _
  · exact setDepth_points (n + 1)

lemma nested_points {p : Parser α} {ok : α → Prop} (hp : Points tokens p ok) : Points tokens (nested p) ok := by
  refine ⟨fun c hc => ?_⟩
  rw [ends_nested]
  apply (enter_points.ends c hc).mono
  · rintro _ d ⟨hd, -⟩
    apply (hp.ends d hd).mono
    · exact fun a e he => ⟨⟨he.1.rest, he.1.faults⟩, he.2⟩
    · exact fun x e he => ⟨⟨he.1.rest, he.1.faults⟩, he.2⟩
  · exact fun _ _ => id

lemma badTarget_points {deeper : Parser Expr} (hd : PointsOnly tokens deeper) (left : Expr) :
    PointsOnly tokens (badTarget deeper left) := by
  refine ifNext_points (fun equals hmem hkind => ?_) (.pure trivial)
  have hfault : (SyntaxFault.ofToken .invalidAssignmentTarget equals).PointsInto tokens :=
    ⟨equals, hmem, rfl, fun _ => eq_of_beq hkind, fun h => by cases h⟩
  exact (nested_points hd).bind fun _ _ => (record_points hfault).bind fun _ _ => .pure trivial

lemma recovering_points (inBlock : Bool) {p : Parser Stmt} (hp : PointsOnly tokens p) :
    PointsOnly tokens (recovering inBlock p) := by
  refine ⟨fun c hc => ?_⟩
  have h := hp.ends c hc
  apply ends_recovering
  · exact fun s d hs => h.ok hs
  · intro f d rest hf hb
    obtain ⟨hd, hpoint⟩ := h.stop hf
    obtain ⟨us, hus, -⟩ := boundary_some hb
    have hrec := hd.record hpoint
    exact ⟨⟨fun _ ht => hd.rest (hus ▸ List.mem_append_right us ht), hrec.faults⟩, trivial⟩
  · intro f d hf _
    obtain ⟨hd, hpoint⟩ := h.stop hf
    exact ⟨⟨List.nil_subset _, (hd.record hpoint).faults⟩, trivial⟩
  · exact fun f d hf => ⟨(h.stop hf).1, trivial⟩

lemma ends_declarations_points {ends : Token.Kind → Bool} {p : Parser (Option Stmt)} (hp : PointsOnly tokens p)
    (hprogress : Progresses ends p) {c : Cursor} (hc : c.Within tokens) :
    Ends (declarations ends p) c
      (fun _ d => d.Within tokens ∧ ∃ t rest, d.rest = t :: rest ∧ ends t.kind = true)
      (fun e d => d.Within tokens ∧ e.PointsInto tokens) := by
  apply ends_declarations (fun _ d => d.Within tokens) hc
  · intro done d t rest hd hr ht
    apply ((hp.ends d hd).and (hprogress d t rest hr ht)).mono
    · exact fun o e h => ⟨h.1.1, h.2⟩
    · exact fun x e h => h.1
  · exact fun _ d hd _ => ⟨hd, trivial⟩

lemma ends_rightBrace {t : Token} {rest : List Token} {n : ℕ} {fs : List SyntaxFault}
    (hc : Cursor.Within tokens ⟨t :: rest, n, fs⟩) (hk : (t.kind == .symbol .rightBrace || t.kind == .eof) = true) :
    Ends (expectSymbol .rightBrace .expectRightBrace) ⟨t :: rest, n, fs⟩ (fun _ d => d.Within tokens)
      (fun e d => d.Within tokens ∧ e.PointsInto tokens) := by
  by_cases hb : t.kind = .symbol .rightBrace
  · exact ends_of_ok (expectSymbol_cons hb) (hc.later (List.suffix_cons t rest) rfl)
  · have hend : t.kind = .eof := by simpa [hb] using hk
    exact ends_of_error (expectSymbol_other hb) ⟨hc, t, hc.rest (.head _), rfl, (fun h => by cases h), fun _ => hend⟩

lemma block_points {p : Parser Stmt} (hp : PointsOnly tokens p) (hl : Local p) (ht : Takes p) :
    PointsOnly tokens (block p) := by
  have hbody := recovering_points true hp
  have hprogress := recovering_progresses hl ht fun _ => ends_block
  apply advance_points.bind
  intro _ _
  refine ⟨fun c hc => ?_⟩
  rw [ends_bind]
  apply (ends_declarations_points hbody hprogress hc).mono
  · rintro body ⟨_, n, fs⟩ ⟨hd, t, rest, rfl, hk⟩
    rw [ends_bind]
    apply (ends_rightBrace hd hk).mono
    · exact fun _ _ he => ⟨he, trivial⟩
    · exact fun _ _ => id
  · exact fun _ _ => id

end Parser

def Logic.pointing (tokens : List Token) : Logic where
  lines := id
  goesBelow _ := True
  judge _ _ _ _ _ p _ := Parser.PointsOnly tokens p
  block _ p _ := Parser.PointsOnly tokens p
  pure _ := .pure trivial
  mono h _ := h
  opened := id
  fail hk := Parser.failHere_points hk _
  bind _ hp hf := hp.bind fun a _ => hf a
  take _ hf hp := Parser.ifNext_points (fun t _ ht => (hf t ht).choose_spec.2) hp
  nested h := Parser.nested_points (h trivial)
  enter h := Parser.enter_points.bind fun _ _ => h trivial
  backUp h := Parser.depth_points.bind fun base _ => h.bind fun _ _ => (Parser.setDepth_points base).bind
    fun _ _ => .pure trivial
  badTarget h _ := Parser.badTarget_points (h trivial) _
  semicolon hk _ := Parser.closing_points _ hk _
  braced hb hp := by
    apply Parser.peek_points.bind
    intro t _
    split
    · exact (Parser.nested_points (hb trivial)).bind fun _ _ => .pure trivial
    · exact hp

lemma Layer.above_points (k n : ℕ) : (Logic.pointing tokens).Layers n (above k) (above k) := by
  refine Logic.Layers.above (L := .pointing tokens) (fun _ => ?_) (fun k n hdeclaration => ?_) k n
  · exact Parser.failHere_points (by decide) _
  · rw [above_block]
    exact Parser.block_points hdeclaration (above_local k) (above_takes k)

lemma Parsed.pointsInto {parsed : Parsed} (h : ofTokens tokens = .ok parsed) :
    ∀ f ∈ parsed.faults, f.PointsInto tokens := by
  have hstart : Cursor.Within tokens ⟨tokens, 0, []⟩ := ⟨List.Subset.refl _, by simp⟩
  have hends := Parser.ends_declarations_points
    (Parser.recovering_points false (Layer.above_points maxNesting 0).declaration) (unit_progresses maxNesting) hstart
  simp only [ofTokens] at h
  split at h
  · rename_i body d hp
    cases h
    intro f hf
    exact (hends.ok hp).1.faults f (List.mem_reverse.mp hf)
  · cases h

end Lox
