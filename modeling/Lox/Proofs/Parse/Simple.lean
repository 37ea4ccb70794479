import Lox.Proofs.Parse.FaultPlaces
import Lox.Proofs.Parse.Separation
import Mathlib.Data.List.Perm.Subperm

/-! Declarations without a block. Such a declaration takes tokens only up to its `;`, and if it has a fault, recovery
skips to the same `;`. On the way every fault but the last is a bad target. -/

namespace Lox

open Lox.Layer

lemma Token.Kind.beq_eq_false_of_isInner {k l : Token.Kind} (hk : k.isInner = true) (hl : l.isInner = false) :
    (k == l) = false := by
  rw [beq_eq_false_iff_ne]
  rintro rfl
  rw [hk] at hl
  cases hl

/-- Over tokens inside one declaration, with no faults but bad targets, each at an `=` of its own. -/
def Cursor.Spans (c d : Cursor) : Prop :=
  ∃ ts fs, c.Reads ts fs d ∧ (∀ t ∈ ts, t.kind.isInner = true) ∧
    fs.Subperm (ts.map (SyntaxFault.ofToken .invalidAssignmentTarget))

namespace Cursor.Spans

variable {c d e : Cursor} {t : Token}

lemma refl (c : Cursor) : c.Spans c :=
  ⟨[], [], .still rfl rfl, by simp, List.nil_subperm⟩

lemma withDepths {m : ℕ} (h : Cursor.Spans { c with depth := m } d) (n : ℕ) : c.Spans { d with depth := n } := by
  obtain ⟨ts, fs, hr, ht, hf⟩ := h
  exact ⟨ts, fs, ⟨hr.rest, hr.faults, hr.noEnd⟩, ht, hf⟩

lemma trans (h : c.Spans d) (hn : d.Spans e) : c.Spans e := by
  obtain ⟨ts, fs, hr, ht, hf⟩ := h
  obtain ⟨us, gs, hr', hu, hg⟩ := hn
  refine ⟨ts ++ us, gs ++ fs, hr.trans hr', ?_, ?_⟩
  · exact fun t h => (List.mem_append.mp h).elim (ht t) (hu t)
  · rw [List.map_append]
    exact List.perm_append_comm.subperm.trans (hf.append hg)

lemma still (n : ℕ) : c.Spans { c with depth := n } :=
  (refl c).withDepths n

lemma token (hc : c.rest = t :: d.rest) (hf : d.faults = c.faults) (ht : t.kind.isInner = true) : c.Spans d :=
  ⟨[t], [], ⟨hc, hf, by simp [Token.isEof_of_kind ht rfl]⟩, by simpa using ht, List.nil_subperm⟩

lemma record (hc : c.rest = t :: d.rest) (hf : d.faults = c.faults) (ht : t.kind.isInner = true) (h : d.Spans e) :
    c.Spans { e with faults := .ofToken .invalidAssignmentTarget t :: e.faults } := by
  obtain ⟨ts, fs, hr, hts, hfs⟩ := h
  refine ⟨t :: ts, .ofToken .invalidAssignmentTarget t :: fs, ⟨?_, ?_, ?_⟩, ?_, ?_⟩
  · rw [hc, hr.rest, List.cons_append]
  · rw [hr.faults, hf, List.cons_append]
  · simpa [Token.isEof_of_kind ht rfl] using hr.noEnd
  · simpa [ht] using hts
  · rw [List.map_cons]
    exact (List.subperm_cons _).mpr hfs

end Cursor.Spans

def Stop.StandsAt (rest : List Token) : Stop → Prop
  | .fault f => ∃ t us, rest = t :: us ∧ f = .ofToken f.kind t ∧ Parser.Anywhere f.kind
  | .internal _ => rest = []

def Cursor.Closes (c d : Cursor) : Prop :=
  ∃ e t, c.Spans e ∧ t.kind = .symbol .semicolon ∧ e.rest = t :: d.rest ∧ d.faults = e.faults

lemma Cursor.Spans.closes {c d e : Cursor} (h : c.Spans d) (hn : d.Closes e) : c.Closes e := by
  obtain ⟨e', t, hs, ht⟩ := hn
  exact ⟨e', t, h.trans hs, ht⟩

def Mode.Moves : Mode → Cursor → Cursor → Prop
  | .within | .opened => Cursor.Spans
  | .closed | .statement => Cursor.Closes

lemma Cursor.Spans.moves {m : Mode} {c d e : Cursor} (h : c.Spans d) (hn : m.Moves d e) : m.Moves c e := by
  cases m with
  | within | opened => exact h.trans hn
  | closed | statement => exact h.closes hn

lemma Cursor.Closes.withDepths {m : ℕ} {c d : Cursor} (h : Cursor.Closes { c with depth := m } d) (n : ℕ) :
    c.Closes { d with depth := n } := by
  obtain ⟨e, t, hs, ht⟩ := h
  exact ⟨e, t, hs.withDepths e.depth, ht⟩

namespace Parser

variable {α β : Type} {m : Mode} {p : Parser α} {c d : Cursor}

abbrev MovesAt (m : Mode) (p : Parser α) (c : Cursor) : Prop :=
  Ends p c (fun _ d => m.Moves c d) (fun e d => c.Spans d ∧ e.StandsAt d.rest)

def Moving (m : Mode) (p : Parser α) : Prop :=
  ∀ c, MovesAt m p c

lemma MovesAt.after (hp : MovesAt m p d) (h : c.Spans d) :
    Ends p d (fun _ e => m.Moves c e) (fun x e => c.Spans e ∧ x.StandsAt e.rest) :=
  hp.mono (fun _ _ => h.moves) fun _ _ hs => ⟨h.trans hs.1, hs.2⟩

lemma ends_failHere {kind : SyntaxFault.Kind} (hk : Anywhere kind) (c : Cursor) {ok : α → Cursor → Prop} :
    Ends (failHere kind) c ok (fun e d => c.Spans d ∧ e.StandsAt d.rest) := by
  obtain ⟨rest, n, fs⟩ := c
  cases rest with
  | nil => exact ⟨.refl _, rfl⟩
  | cons t rest => exact ⟨.refl _, t, rest, rfl, rfl, hk⟩

namespace Moving

lemma bind {f : α → Parser β} (hp : Moving .within p) (hf : ∀ a, Moving m (f a)) : Moving m (p >>= f) := by
  intro c
  rw [MovesAt, ends_bind]
  exact (hp c).mono (fun a d => (hf a d).after) fun _ _ => id

lemma take {kinds : Token.Kind → Bool} {f : Token → Parser α} (hkinds : ∀ k, kinds k = true → k.isInner = true)
    (hf : ∀ t, kinds t.kind = true → Moving m (f t)) (hp : Moving m p) : Moving m (ifNext kinds f p) := by
  intro c
  rcases ifNext_cases kinds f p c with ⟨-, h⟩ | ⟨t, rest, hc, -, hk, h⟩
  · simpa only [MovesAt, Ends, h] using hp c
  · have hrun := (hf t hk { c with rest }).after (.token hc rfl (hkinds t.kind hk))
    simpa only [MovesAt, Ends, h] using hrun

lemma enter (hp : Moving m p) : Moving m (do enter; p) := by
  intro c
  rw [MovesAt, ends_bind]
  exact ends_enter (ends_failHere (by decide) c) fun _ => (hp _).after (.still _)

lemma nested (hp : Moving .within p) : Moving .within (nested p) := by
  intro c
  rw [MovesAt, ends_nested]
  apply ends_enter (ends_failHere (by decide) c)
  intro _
  apply (hp _).mono
  · exact fun _ _ h => Cursor.Spans.withDepths h _
  · exact fun _ _ h => ⟨h.1.withDepths _, h.2⟩

lemma backUp (hp : Moving .opened p) : Moving .within (backUp p) := by
  intro c
  rw [MovesAt, Parser.backUp, ends_bind, ends_depth, ends_bind]
  exact (hp c).mono (fun _ _ h => Cursor.Spans.withDepths h _) fun _ _ => id

lemma badTarget {deeper : Parser Expr} (hd : Moving .within deeper) (left : Expr) :
    Moving .within (badTarget deeper left) := by
  intro c
  rcases ifNext_cases (· == .symbol .equal) _ _ c with ⟨-, h⟩ | ⟨equals, rest, hc, -, hk, h⟩
  · exact ends_of_ok h (.refl c)
  · have hinner := Token.Kind.isInner_of_beq hk rfl
    have hequals : c.Spans { c with rest } := .token hc rfl hinner
    rw [MovesAt, Parser.badTarget, Ends, h, ← Ends, ends_bind]
    apply (hd.nested { c with rest }).mono
    · exact fun _ d hvalue => Cursor.Spans.record (d := { c with rest }) hc rfl hinner hvalue
    · exact fun _ d hs => ⟨hequals.trans hs.1, hs.2⟩

lemma semicolon {kind : SyntaxFault.Kind} (hk : Anywhere kind) (a : α) :
    Moving .closed (closing .semicolon kind a) := by
  intro c
  rcases ifNext_cases (· == .symbol .semicolon) (fun _ => pure a) (failHere kind) c with
    ⟨-, h⟩ | ⟨t, rest, hc, -, ht, h⟩
  · rw [MovesAt, Parser.closing, Ends, h, ← Ends]
    exact ends_failHere hk c
  · exact ends_of_ok h ⟨c, t, .refl c, eq_of_beq ht, hc, rfl⟩

end Moving

end Parser

/-- How a statement ends, said so that it holds of one without a block, and no matter at which depth. -/
structure Verdict where
  ok : Cursor → Cursor → Prop
  stop : Cursor → Stop → Cursor → Prop
  closes {c d : Cursor} : c.Closes d → ok c d
  stands {c d : Cursor} {x : Stop} : c.Spans d → x.StandsAt d.rest → stop c x d
  ok_depth {c d : Cursor} {m : ℕ} (n : ℕ) : ok { c with depth := m } d → ok c { d with depth := n }
  stop_depth {c d : Cursor} {x : Stop} {m : ℕ} (n : ℕ) : stop { c with depth := m } x d →
    stop c x { d with depth := n }

namespace Verdict

open Lox.Parser

variable {α : Type} (V : Verdict)

abbrev At (p : Parser α) (c : Cursor) : Prop :=
  Ends p c (fun _ d => V.ok c d) (V.stop c)

def AtBlock (p : Parser (List Stmt)) : Prop :=
  ∀ c left rest, c.rest = left :: rest → left.kind = .symbol .leftBrace → V.At p c

def Judges (m : Mode) (p : Parser α) : Prop :=
  match m with
  | .statement => ∀ c, V.At p c
  | m => p.Moving m

variable {V} {p : Parser α} {c : Cursor}

lemma of_movesAt (h : MovesAt .closed p c) : V.At p c :=
  h.mono (fun _ _ => V.closes) fun _ _ hs => V.stands hs.1 hs.2

lemma ends_failHere_at {kind : SyntaxFault.Kind} (hk : Anywhere kind) (c : Cursor) {ok : α → Cursor → Prop} :
    Ends (failHere kind) c ok (V.stop c) :=
  (ends_failHere hk c).mono (fun _ _ => id) fun _ _ hs => V.stands hs.1 hs.2

lemma nested (hp : V.At p { c with depth := c.depth + 1 }) : V.At (nested p) c := by
  rw [At, ends_nested]
  apply ends_enter (ends_failHere_at (by decide) c)
  intro _
  exact hp.mono (fun _ _ => V.ok_depth _) fun _ _ => V.stop_depth _

lemma take {kinds : Token.Kind → Bool} {f : Token → Parser α} (hkinds : ∀ k, kinds k = true → k.isInner = true)
    (hf : ∀ t, kinds t.kind = true → Moving .closed (f t)) (hp : ∀ c, V.At p c) (c : Cursor) :
    V.At (ifNext kinds f p) c := by
  rcases ifNext_cases kinds f p c with ⟨-, h⟩ | ⟨t, rest, hc, -, hk, h⟩
  · simpa only [At, Ends, h] using hp c
  · have hrun := (hf t hk { c with rest }).after (.token hc rfl (hkinds t.kind hk))
    simp only [At, Ends, h]
    exact hrun.mono (fun _ _ => V.closes) fun _ _ hs => V.stands hs.1 hs.2

lemma braced {b : Parser (List Stmt)} {p : Parser Stmt} (hb : V.AtBlock b) (hp : Moving .closed p) (c : Cursor) :
    V.At (ifBrace (do return .block (← Parser.nested b)) p) c := by
  rw [At, ifBrace, ends_bind]
  cases hc : c.rest with
  | nil =>
    have hpeek : peek c = .error (.internal .missingEnd) c := by simp only [peek, hc]
    exact ends_of_error hpeek (V.stands (.refl c) hc)
  | cons t rest =>
    have hpeek : peek c = .ok t c := by simp only [peek, hc]
    apply ends_of_ok hpeek
    split
    · rename_i ht
      rw [ends_bind]
      exact nested (hb _ t rest hc (eq_of_beq ht))
    · exact of_movesAt (hp c)

end Verdict

def Logic.simple (V : Verdict) : Logic where
  lines := id
  goesBelow _ := True
  judge m _ _ _ _ p _ := V.Judges m p
  block _ p _ := V.AtBlock p
  pure _ c := .refl c
  mono h _ := h
  opened := id
  fail {m} _ _ _ _ _ hk := by
    cases m with
    | statement => exact fun c => Verdict.ends_failHere_at hk c
    | _ => exact fun c => Parser.ends_failHere hk c
  bind {m} _ _ _ _ _ _ _ _ _ _ _ hm hp hf := by
    cases m with
    | statement => exact absurd rfl hm
    | _ => exact Parser.Moving.bind hp hf
  take {m} _ _ _ _ _ _ _ _ _ hkinds hf hp := by
    have hfirst t ht := (hf t ht).choose_spec.2
    cases m with
    | statement => exact Verdict.take hkinds hfirst hp
    | _ => exact Parser.Moving.take hkinds hfirst hp
  nested h := .nested (h trivial)
  enter h := .enter (h trivial)
  backUp := .backUp
  badTarget h _ := .badTarget (h trivial) _
  semicolon hk _ := .semicolon hk _
  braced h := Verdict.braced (h trivial)

lemma Layer.above_simple {V : Verdict}
    (hblock : ∀ k, (∀ c, V.At (above k).declaration c) → V.AtBlock (above k).block) (k : ℕ) :
    (Logic.simple V).Layers 0 (above k) (above k) :=
  Logic.Layers.above (L := .simple V) (fun _ c _ _ _ _ => Verdict.ends_failHere_at (by decide) c)
    (fun k _ => hblock k) k 0

namespace Parser

lemma bracesBehind_of_ne {k : Token.Kind} (hl : k ≠ .symbol .leftBrace) (hr : k ≠ .symbol .rightBrace) (n : ℕ) :
    bracesBehind n k = n := by
  unfold bracesBehind
  split
  · exact absurd rfl hl
  · exact absurd rfl hr
  · rfl

lemma bracesBehind_of_isInner {k : Token.Kind} (hk : k.isInner = true) (n : ℕ) : bracesBehind n k = n := by
  apply bracesBehind_of_ne <;> rintro rfl <;> cases hk

lemma boundary_semicolon {inBlock : Bool} {b rest : List Token} {semi : Token}
    (hb : ∀ t ∈ b, t.kind.isInner = true) (hk : ∀ t ∈ b.tail, t.kind.startsStatement = false)
    (hs : semi.kind = .symbol .semicolon) : boundary inBlock 0 (b ++ semi :: rest) = some rest := by
  induction b with
  | nil => simp [boundary, Token.isEof, hs]
  | cons t b ih =>
    have ht := hb t (List.mem_cons_self ..)
    have hhead : (b ++ semi :: rest).head?.any (·.kind.startsStatement) = false := by
      cases b with
      | nil => simp [hs, Token.Kind.startsStatement]
      | cons u b => simpa using hk u (List.mem_cons_self ..)
    have hbrace : (t.kind == .symbol .rightBrace) = false := Token.Kind.beq_eq_false_of_isInner ht rfl
    have hsemi : (t.kind == .symbol .semicolon) = false := Token.Kind.beq_eq_false_of_isInner ht rfl
    rw [List.cons_append, boundary]
    simp only [Token.isEof_of_kind ht rfl, hbrace, hsemi, hhead, bracesBehind_of_isInner ht, Bool.and_false,
      Bool.false_eq_true, if_false]
    exact ih (fun u hu => hb u (List.mem_cons_of_mem t hu)) fun u hu => hk u (List.mem_of_mem_tail hu)

end Parser

def Verdict.blockless : Verdict where
  ok c d := (∀ t ∈ c.rest.head?, t.kind ≠ .symbol .leftBrace) → c.Closes d
  stop c x d := (∀ t ∈ c.rest.head?, t.kind ≠ .symbol .leftBrace) → c.Spans d ∧ x.StandsAt d.rest
  closes h _ := h
  stands h hx _ := ⟨h, hx⟩
  ok_depth _ h hc := (h hc).withDepths _
  stop_depth _ h hc := ⟨(h hc).1.withDepths _, (h hc).2⟩

lemma Layer.above_declaration_simple (n : ℕ) {c : Cursor} (hc : ∀ t ∈ c.rest.head?, t.kind ≠ .symbol .leftBrace) :
    Parser.MovesAt .closed (above n).declaration c := by
  have hends : Verdict.blockless.At (above n).declaration c := by
    refine (above_simple (fun k _ c left rest hr hleft => ?_) n).declaration c
    have hnot : ¬∀ t ∈ c.rest.head?, t.kind ≠ .symbol .leftBrace := fun h => h left (by simp [hr]) hleft
    exact Ends.of_forall (fun _ _ h => absurd h hnot) fun _ _ h => absurd h hnot
  exact hends.mono (fun _ _ h => h hc) fun _ _ h => h hc

namespace Parsed

def BadTargets (fs : List SyntaxFault) : Prop :=
  ∀ f ∈ fs, f.kind = .invalidAssignmentTarget

lemma badTargets_of_subperm {fs : List SyntaxFault} {ts : List Token}
    (h : fs.Subperm (ts.map (SyntaxFault.ofToken .invalidAssignmentTarget))) : BadTargets fs := by
  intro f hf
  obtain ⟨t, -, rfl⟩ := List.mem_map.mp (h.subset hf)
  rfl

lemma exists_inner_left {b ts rest : List Token} {semi : Token} (hts : ∀ t ∈ ts, t.kind.isInner = true)
    (hs : semi.kind = .symbol .semicolon) (h : b ++ [semi] = ts ++ rest) :
    ∃ left, b = ts ++ left ∧ rest = left ++ [semi] := by
  rcases List.append_eq_append_iff.mp h with ⟨us, rfl, hu⟩ | ⟨left, rfl, rfl⟩
  · cases us with
    | nil => exact ⟨[], by simp, hu.symm⟩
    | cons u us =>
      obtain ⟨rfl, -⟩ := List.cons.inj hu
      have hinner := hts semi (by simp)
      rw [hs] at hinner
      cases hinner
  · exact ⟨left, rfl, rfl⟩

section

variable {b : List Token} {semi : Token} {d : Cursor} (hb : ∀ t ∈ b, t.kind.isInner = true)
  (hs : semi.kind = .symbol .semicolon)

include hb hs

lemma declaration_simple : Parser.MovesAt .closed (above maxNesting).declaration ⟨b ++ [semi], 0, []⟩ := by
  apply above_declaration_simple
  intro t ht hbrace
  rcases List.mem_append.mp (List.mem_of_mem_head? ht) with h | h
  · have hinner := hb t h
    rw [hbrace] at hinner
    cases hinner
  · rw [List.mem_singleton.mp h, hs] at hbrace
    cases hbrace

lemma declaration_semicolon_ok {s : Stmt} (h : (above maxNesting).declaration ⟨b ++ [semi], 0, []⟩ = .ok s d) :
    d.rest = [] ∧ d.depth = 0 ∧ BadTargets d.faults := by
  have hsound := (above_sound maxNesting 0).declaration (Nat.zero_le _) ⟨b ++ [semi], 0, []⟩ rfl
  have hdepth := (hsound.ok h).depth_eq (by decide)
  obtain ⟨e, t, ⟨ts, fs, hread, hts, hfs⟩, ht, he, hfaults⟩ := (declaration_simple hb hs).ok h
  obtain ⟨left, rfl, hleft⟩ := exists_inner_left hts hs hread.rest
  rw [he] at hleft
  cases left with
  | nil =>
    refine ⟨(List.cons.inj hleft).2, hdepth, ?_⟩
    rw [hfaults, hread.faults, List.append_nil]
    exact badTargets_of_subperm hfs
  | cons u left =>
    have hinner := hb u (by simp)
    obtain ⟨rfl, -⟩ := List.cons.inj hleft
    rw [ht] at hinner
    cases hinner

lemma declaration_semicolon_stop {x : Stop} (h : (above maxNesting).declaration ⟨b ++ [semi], 0, []⟩ = .error x d) :
    ∃ f left, x = .fault f ∧ f.kind ≠ .invalidAssignmentTarget ∧ left <:+ b ∧ d.rest = left ++ [semi] ∧
      BadTargets d.faults := by
  obtain ⟨⟨ts, fs, hread, hts, hfs⟩, hx⟩ := (declaration_simple hb hs).stop h
  obtain ⟨left, rfl, hleft⟩ := exists_inner_left hts hs hread.rest
  cases x with
  | internal f =>
    have hnil : d.rest = [] := hx
    rw [hnil] at hleft
    exact absurd hleft (by simp)
  | fault f =>
    obtain ⟨-, -, -, -, hkind, -⟩ := hx
    refine ⟨f, left, rfl, hkind, List.suffix_append ts left, hleft, ?_⟩
    rw [hread.faults, List.append_nil]
    exact badTargets_of_subperm hfs

lemma exists_unit_semicolon (hk : ∀ t ∈ b.tail, t.kind.startsStatement = false) :
    ∃ o fs, unit ⟨b ++ [semi], 0, []⟩ = .ok o ⟨[], 0, fs⟩ ∧
      ((∃ s, o = some s ∧ BadTargets fs) ∨
        (o = none ∧ ∃ f gs, fs = f :: gs ∧ f.kind ≠ .invalidAssignmentTarget ∧ BadTargets gs)) := by
  cases hr : (above maxNesting).declaration ⟨b ++ [semi], 0, []⟩ with
  | ok s d =>
    obtain ⟨hrest, hdepth, hbad⟩ := declaration_semicolon_ok hb hs hr
    refine ⟨some s, d.faults, ?_, .inl ⟨s, rfl, hbad⟩⟩
    rw [unit, Parser.recovering_of_ok hr, ← hrest, ← hdepth]
  | error x d =>
    obtain ⟨f, left, rfl, hkind, ⟨ts, rfl⟩, hleft, hbad⟩ := declaration_semicolon_stop hb hs hr
    -- the fault is at `left` or at the `;`, so recovery stops where the declaration would have ended
    have hkeyword : ∀ t ∈ left.tail, t.kind.startsStatement = false := by
      intro t ht
      cases ts with
      | nil => exact hk t ht
      | cons u ts => exact hk t (List.mem_append_right ts (List.mem_of_mem_tail ht))
    have hskip : Parser.boundary false 0 d.rest = some [] := by
      rw [hleft]
      exact Parser.boundary_semicolon (fun t ht => hb t (List.mem_append_right ts ht)) hkeyword hs
    exact ⟨none, f :: d.faults, Parser.recovering_of_fault hr hskip, .inr ⟨rfl, f, d.faults, rfl, hkind, hbad⟩⟩

end

lemma ofTokens_end {last : Token} (hl : last.isEof = true) : ofTokens [last] = .ok ⟨[], []⟩ :=
  ofTokens_of_spells [] (by simp) .nil hl

theorem ofTokens_semicolon_append (b : List Token) (semi : Token) (hb : ∀ t ∈ b, t.kind.isInner = true)
    (hk : ∀ t ∈ b.tail, t.kind.startsStatement = false) (hs : semi.kind = .symbol .semicolon) :
    ∃ own : Parsed, (∀ last : Token, last.isEof = true → ofTokens (b ++ [semi, last]) = .ok own) ∧
      (∀ rest : List Token, (∃ t ∈ rest, t.isEof = true) → ∃ parsed, ofTokens rest = .ok parsed ∧
        ofTokens (b ++ semi :: rest) = .ok ⟨own.statements ++ parsed.statements, own.faults ++ parsed.faults⟩) ∧
      ((∃ s, own.statements = [s] ∧ ∀ f ∈ own.faults, f.kind = .invalidAssignmentTarget) ∨
        (own.statements = [] ∧ ∃ fs f, own.faults = fs ++ [f] ∧ f.kind ≠ .invalidAssignmentTarget ∧
          ∀ g ∈ fs, g.kind = .invalidAssignmentTarget)) := by
  obtain ⟨o, fs, hunit, hgives⟩ := exists_unit_semicolon hb hs hk
  have hhead : ∃ t ∈ (b ++ [semi]).head?, t.isEof = false := by
    cases b with
    | nil => exact ⟨semi, rfl, by simp [Token.isEof, hs]⟩
    | cons t b => exact ⟨t, rfl, Token.isEof_of_kind (hb t (List.mem_cons_self ..)) rfl⟩
  have happend {rest : List Token} {parsed : Parsed} (h : ofTokens rest = .ok parsed) :
      ofTokens (b ++ semi :: rest) = .ok ⟨o.toList ++ parsed.statements, fs.reverse ++ parsed.faults⟩ := by
    rw [List.append_cons]
    exact ofTokens_append_of_unit hhead hunit h
  refine ⟨⟨o.toList, fs.reverse⟩, fun last hl => ?_, ?_, ?_⟩
  · simpa using happend (ofTokens_end hl)
  · rintro rest ⟨t, ht, he⟩
    obtain ⟨parsed, hparsed⟩ := exists_ofTokens ht he
    exact ⟨parsed, hparsed, happend hparsed⟩
  · rcases hgives with ⟨s, rfl, hbad⟩ | ⟨rfl, f, gs, rfl, hkind, hbad⟩
    · exact .inl ⟨s, rfl, fun f hf => hbad f (List.mem_reverse.mp hf)⟩
    · exact .inr ⟨rfl, gs.reverse, f, by simp, hkind, fun g hg => hbad g (List.mem_reverse.mp hg)⟩

def openGroup : List Token :=
  -- `(nil = nil`
  [⟨.symbol .leftParen, "(", 1⟩, ⟨.keyword .nilKw, "nil", 1⟩, ⟨.symbol .equal, "=", 1⟩, ⟨.keyword .nilKw, "nil", 1⟩]

def printTrue : List Token :=
  -- `print true;`
  [⟨.keyword .printKw, "print", 2⟩, ⟨.keyword .trueKw, "true", 2⟩, ⟨.symbol .semicolon, ";", 2⟩, Token.endAt 2]

theorem ofTokens_semicolon_append_openGroup :
    (∀ t ∈ openGroup, t.kind.isInner = true) ∧ (∀ t ∈ openGroup.tail, t.kind.startsStatement = false) ∧
      ofTokens (openGroup ++ ⟨.symbol .semicolon, ";", 1⟩ :: printTrue) =
        .ok ⟨[.print (.literal (.bool true))],
          [⟨.invalidAssignmentTarget, 1, .atLexeme "="⟩, ⟨.expectRightParen, 1, .atLexeme ";"⟩]⟩ := by
  have hb : ∀ t ∈ openGroup, t.kind.isInner = true := by decide
  have hk : ∀ t ∈ openGroup.tail, t.kind.startsStatement = false := by decide
  have hown : ofTokens (openGroup ++ [⟨.symbol .semicolon, ";", 1⟩, Token.endAt 1]) =
      .ok ⟨[], [⟨.invalidAssignmentTarget, 1, .atLexeme "="⟩, ⟨.expectRightParen, 1, .atLexeme ";"⟩]⟩ := by
    decide +kernel
  have hprint : ofTokens printTrue = .ok ⟨[.print (.literal (.bool true))], []⟩ := by decide +kernel
  obtain ⟨own, halone, happend, -⟩ := ofTokens_semicolon_append openGroup ⟨.symbol .semicolon, ";", 1⟩ hb hk rfl
  obtain rfl := Except.ok.inj ((halone (Token.endAt 1) rfl).symm.trans hown)
  obtain ⟨parsed, hparsed, hboth⟩ := happend printTrue (by decide)
  obtain rfl := Except.ok.inj (hparsed.symm.trans hprint)
  exact ⟨hb, hk, hboth⟩

end Parsed

end Lox
