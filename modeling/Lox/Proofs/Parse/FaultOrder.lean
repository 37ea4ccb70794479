import Lox.Proofs.Parse.Blocks

/-! Which tokens the faults are at, and in which order. A token has at most one: a bad target if it is an `=` that was
taken, or the fault of a declaration that stopped there, which recovery skips or the block that it closes takes. Only
the end mark is never taken, so there every open block adds a fault of its own. -/

namespace Lox

open Lox.Layer

def SyntaxFault.isBadTarget (f : SyntaxFault) : Bool :=
  f.kind == .invalidAssignmentTarget

/-- The faults, the newest first, are at tokens that were taken: no two at one token and, bad targets apart, in the
order of the tokens. -/
structure Told (ts : List Token) (fs : List SyntaxFault) : Prop where
  once : (fs.map (·.line)).Subperm (ts.map (·.line))
  ordered : ((fs.filter (!·.isBadTarget)).map (·.line)).Sublist (ts.map (·.line)).reverse

namespace Told

variable {ts us : List Token} {fs gs : List SyntaxFault}

lemma nil (ts : List Token) : Told ts [] :=
  ⟨List.nil_subperm, List.nil_sublist _⟩

lemma single (kind : SyntaxFault.Kind) (t : Token) : Told [t] [.ofToken kind t] :=
  ⟨List.Subperm.refl _, List.filter_sublist.map _⟩

lemma append (h : Told ts fs) (hn : Told us gs) : Told (ts ++ us) (gs ++ fs) where
  once := by
    rw [List.map_append, List.map_append]
    exact List.perm_append_comm.subperm.trans (h.once.append hn.once)
  ordered := by
    rw [List.filter_append, List.map_append, List.map_append, List.reverse_append]
    exact hn.ordered.append h.ordered

lemma of_badTargets (h : fs.Subperm (ts.map (SyntaxFault.ofToken .invalidAssignmentTarget))) : Told ts fs where
  once := by
    obtain ⟨gs, hperm, hsub⟩ := h
    refine ⟨gs.map (·.line), hperm.map _, ?_⟩
    have hlines := hsub.map (·.line)
    rwa [List.map_map] at hlines
  ordered := by
    have hnone : fs.filter (!·.isBadTarget) = [] := by
      rw [List.filter_eq_nil_iff]
      intro f hf
      simp [SyntaxFault.isBadTarget, Parsed.badTargets_of_subperm h f hf]
    rw [hnone]
    exact List.nil_sublist _

end Told

/-- The faults at the token that comes next: one at which a declaration stopped and, if it is the end mark, one more
for each block left open. -/
inductive Pending : List Token → List SyntaxFault → Prop
  | none (rest : List Token) : Pending rest []
  | fault {kind : SyntaxFault.Kind} (hk : Parser.Anywhere kind) (t : Token) (rest : List Token) :
    Pending (t :: rest) [.ofToken kind t]
  | unclosed {last : Token} {rest : List Token} {gs : List SyntaxFault} (hl : last.isEof = true)
    (h : Pending (last :: rest) gs) : Pending (last :: rest) (.ofToken .expectRightBrace last :: gs)

namespace Pending

variable {t : Token} {rest : List Token} {gs : List SyntaxFault}

lemma told (h : Pending (t :: rest) gs) (ht : t.isEof = false) : Told [t] gs := by
  cases h with
  | none => exact .nil _
  | fault hk => exact .single _ t
  | unclosed hl =>
    rw [ht] at hl
    cases hl

lemma line_eq (h : Pending (t :: rest) gs) : ∀ g ∈ gs, g.line = t.line := by
  generalize hts : t :: rest = ts at h
  induction h with
  | none => simp
  | fault hk u =>
    obtain ⟨rfl, -⟩ := List.cons.inj hts
    simp [SyntaxFault.ofToken]
  | unclosed hl h ih =>
    obtain ⟨rfl, -⟩ := List.cons.inj hts
    simpa [SyntaxFault.ofToken] using ih hts

lemma exists_reverse {ts : List Token} (h : Pending ts gs) :
    ∃ first braces, gs.reverse = first ++ braces ∧ first.length ≤ 1 ∧ (∀ f ∈ first, f.kind ≠ .expectRightBrace) ∧
      ∀ f ∈ braces, f.kind = .expectRightBrace := by
  induction h with
  | none => exact ⟨[], [], by simp⟩
  | @fault kind hk t => exact ⟨[.ofToken kind t], [], rfl, le_rfl, by simpa [SyntaxFault.ofToken] using hk.2, by simp⟩
  | @unclosed last _ gs hl h ih =>
    obtain ⟨first, braces, hgs, hlength, hfirst, hbraces⟩ := ih
    refine ⟨first, braces ++ [.ofToken .expectRightBrace last], by simp [hgs], hlength, hfirst, ?_⟩
    simpa [or_imp, forall_and, SyntaxFault.ofToken] using hbraces

end Pending

/-- From `c` to `d` every fault but those of `gs` is at a token that was taken, and those are at the next one. -/
def Cursor.Tells (c : Cursor) (gs : List SyntaxFault) (d : Cursor) : Prop :=
  ∃ ts fs, c.Reads ts (gs ++ fs) d ∧ Told ts fs ∧ Pending d.rest gs

namespace Cursor.Tells

variable {c d e : Cursor} {t : Token} {us : List Token} {gs : List SyntaxFault}

lemma refl (c : Cursor) : c.Tells [] c :=
  ⟨[], [], .still rfl rfl, .nil [], .none _⟩

lemma trans (h : c.Tells [] d) (hn : d.Tells gs e) : c.Tells gs e := by
  obtain ⟨ts, fs, hr, ht, -⟩ := h
  obtain ⟨us, fs', hr', ht', hp⟩ := hn
  refine ⟨ts ++ us, fs' ++ fs, ?_, ht.append ht', hp⟩
  simpa using hr.trans hr'

lemma withDepths {m : ℕ} (h : Cursor.Tells { c with depth := m } gs d) (n : ℕ) : c.Tells gs { d with depth := n } := by
  obtain ⟨ts, fs, hr, ht⟩ := h
  exact ⟨ts, fs, ⟨hr.rest, hr.faults, hr.noEnd⟩, ht⟩

lemma skip (h : c.Tells gs d) (hd : d.rest = t :: us ++ e.rest) (hf : e.faults = d.faults)
    (hno : ∀ u ∈ t :: us, u.isEof = false) : c.Tells [] e := by
  obtain ⟨ts, fs, hr, ht, hp⟩ := h
  rw [hd] at hp
  -- the faults that waited are at the first token skipped
  have hskip : Told (t :: us) gs := by simpa using (hp.told (hno t (List.mem_cons_self ..))).append (.nil us)
  refine ⟨ts ++ t :: us, gs ++ fs, ?_, ht.append hskip, .none _⟩
  simpa using hr.trans (⟨hd, hf, hno⟩ : d.Reads (t :: us) [] e)

lemma take (h : c.Tells gs d) (hd : d.rest = t :: e.rest) (hf : e.faults = d.faults) (ht : t.isEof = false) :
    c.Tells [] e := by
  have hone : d.rest = [t] ++ e.rest := hd
  exact h.skip hone hf (by simpa using ht)

lemma fault {f : SyntaxFault} (h : c.Tells gs d) (hp : Pending d.rest (f :: gs)) :
    c.Tells (f :: gs) { d with faults := f :: d.faults } := by
  obtain ⟨ts, fs, hr, ht, -⟩ := h
  exact ⟨ts, fs, ⟨hr.rest, by simp [hr.faults], hr.noEnd⟩, ht, hp⟩

end Cursor.Tells

def Stop.Tells (c d : Cursor) : Stop → Prop
  | .fault f => ∃ gs, c.Tells gs { d with faults := f :: d.faults }
  | .internal _ => True

lemma Cursor.Spans.tells {c d : Cursor} (h : c.Spans d) : c.Tells [] d := by
  obtain ⟨ts, fs, hr, -, hfs⟩ := h
  exact ⟨ts, fs, hr, .of_badTargets hfs, .none _⟩

lemma Cursor.Spans.stop_tells {c d : Cursor} {x : Stop} (h : c.Spans d) (hx : x.StandsAt d.rest) : x.Tells c d := by
  cases x with
  | internal f => trivial
  | fault f =>
    obtain ⟨t, rest, hd, hf, hk⟩ := hx
    refine ⟨[f], h.tells.fault ?_⟩
    rw [hd, hf]
    exact .fault hk t rest

lemma Cursor.Closes.tells {c d : Cursor} (h : c.Closes d) : c.Tells [] d := by
  obtain ⟨e, t, hs, ht, he, hfaults⟩ := h
  exact hs.tells.take he hfaults (by simp [Token.isEof, ht])

def Verdict.telling : Verdict where
  ok c d := c.Tells [] d
  stop c x d := x.Tells c d
  closes := Cursor.Closes.tells
  stands := Cursor.Spans.stop_tells
  ok_depth n h := h.withDepths n
  stop_depth {_ _ x} _ n h := by
    cases x with
    | fault f => exact h.imp fun _ h => h.withDepths n
    | internal f => trivial

def Cursor.TellsUpTo (ends : Token.Kind → Bool) (c d : Cursor) : Prop :=
  ∃ gs, c.Tells gs d ∧ (gs = [] ∨ ∃ t rest, d.rest = t :: rest ∧ ends t.kind = true)

namespace Parser

variable {α : Type} {c : Cursor}

abbrev TellsAt (p : Parser α) (c : Cursor) : Prop :=
  Ends p c (fun _ d => c.Tells [] d) (fun e d => e.Tells c d)

lemma recovering_tells {inBlock : Bool} {ends : Token.Kind → Bool} {p : Parser Stmt} (hp : TellsAt p c)
    (hends : ∀ k, ends k = false → k ≠ .eof ∧ (inBlock = true → k ≠ .symbol .rightBrace)) :
    Ends (recovering inBlock p) c (fun _ d => c.TellsUpTo ends d) (fun x _ => ∃ f, x = .internal f) := by
  apply ends_recovering
  · exact fun s d hs => ⟨[], hp.ok hs, .inl rfl⟩
  · intro f d rest hf hb
    obtain ⟨gs, htells⟩ : ∃ gs, c.Tells gs { d with faults := f :: d.faults } := hp.stop hf
    obtain ⟨us, hus, hno⟩ := boundary_some hb
    cases us with
    | cons u us => exact ⟨[], htells.skip hus rfl hno, .inl rfl⟩
    | nil =>
      -- nothing is skipped, and that happens only at a token that ends the list
      obtain rfl : d.rest = rest := hus
      refine ⟨gs, htells.withDepths _, .inr ?_⟩
      cases hd : d.rest with
      | nil => simp [hd, boundary] at hb
      | cons t rest =>
        refine ⟨t, rest, rfl, Bool.of_not_eq_false fun hk => ?_⟩
        rw [hd] at hb
        obtain ⟨heof, hbrace⟩ := hends t.kind hk
        exact absurd (boundary_lt (by simpa [Token.isEof] using heof) hbrace hb) (lt_irrefl _)
  · exact fun _ _ _ _ => ⟨_, rfl⟩
  · exact fun f _ _ => ⟨f, rfl⟩

lemma declarations_tell {inBlock : Bool} {ends : Token.Kind → Bool} {p : Parser Stmt} (hp : ∀ c, TellsAt p c)
    (hprogress : Progresses ends (recovering inBlock p))
    (hends : ∀ k, ends k = false → k ≠ .eof ∧ (inBlock = true → k ≠ .symbol .rightBrace)) (c : Cursor) :
    Ends (declarations ends (recovering inBlock p)) c
      (fun _ d => (∃ gs, c.Tells gs d) ∧ ∃ t rest, d.rest = t :: rest ∧ ends t.kind = true)
      (fun x _ => ∃ f, x = .internal f) := by
  have hloop : Ends (declarations ends (recovering inBlock p)) c
      (fun _ d => c.TellsUpTo ends d ∧ ∃ t rest, d.rest = t :: rest ∧ ends t.kind = true)
      (fun x _ => ∃ f, x = .internal f) := by
    apply ends_declarations (fun _ d => c.TellsUpTo ends d) ⟨[], .refl c, .inl rfl⟩ _ fun _ _ _ _ => ⟨_, rfl⟩
    rintro done d t rest ⟨gs, hd, hgs⟩ hr ht
    obtain rfl : gs = [] := by
      refine hgs.resolve_right ?_
      rintro ⟨u, us, hu, hk⟩
      obtain ⟨rfl, -⟩ := List.cons.inj (hr.symm.trans hu)
      rw [ht] at hk
      cases hk
    apply ((recovering_tells (hp d) hends).and (hprogress d t rest hr ht)).mono
    · rintro o e ⟨⟨hs, he, hwait⟩, hlt⟩
      exact ⟨⟨hs, hd.trans he, hwait⟩, hlt⟩
    · exact fun _ _ hx => hx.1
  exact hloop.mono (fun _ d hd => ⟨hd.1.imp fun _ h => h.1, hd.2⟩) fun _ _ => id

lemma block_tells {p : Parser Stmt} (hp : ∀ c, TellsAt p c) (hl : Local p) (ht : Takes p) :
    Verdict.telling.AtBlock (block p) := by
  intro c left rest hc hleft
  have hstart : c.Tells [] { c with rest } := (Cursor.Tells.refl c).take hc rfl (by simp [Token.isEof, hleft])
  have hbody := declarations_tell hp (recovering_progresses hl ht fun _ => ends_block) (fun _ => ends_block)
    { c with rest }
  apply ends_braced hc hleft (hbody.mono (fun _ _ => id) ?_)
  · rintro body d right rest' ⟨gs, hd⟩ hr hright
    exact (hstart.trans hd).take hr rfl (by simp [Token.isEof, hright])
  · rintro d last rest' ⟨gs, hd⟩ hr heof
    refine ⟨_, (hstart.trans hd).fault ?_⟩
    obtain ⟨-, -, -, -, hwait⟩ := hd
    rw [hr] at hwait ⊢
    exact .unclosed (by simp [Token.isEof, heof]) hwait
  · rintro x d ⟨f, rfl⟩
    trivial

end Parser

lemma Layer.above_tells (k : ℕ) : ∀ c, (above k).declaration.TellsAt c := by
  refine (above_simple (V := .telling) (fun k hdeclaration => ?_) k).declaration
  rw [above_block]
  exact Parser.block_tells hdeclaration (above_local k) (above_takes k)

namespace Parsed

lemma ofTokens_tells {tokens : List Token} {parsed : Parsed} (h : ofTokens tokens = .ok parsed) :
    ∃ ts t rest fs gs, tokens = ts ++ t :: rest ∧ t.isEof = true ∧ (∀ u ∈ ts, u.isEof = false) ∧
      parsed.faults = fs.reverse ++ gs.reverse ∧ Told ts fs ∧ Pending (t :: rest) gs := by
  have htell := Parser.declarations_tell (above_tells maxNesting) (unit_progresses maxNesting)
    (fun k hk => ⟨by simpa using hk, by simp⟩) ⟨tokens, 0, []⟩
  simp only [ofTokens] at h
  split at h
  · rename_i body d hp
    cases h
    obtain ⟨⟨gs, ts, fs, hr, htold, hwait⟩, t, rest, hd, ht⟩ := htell.ok hp
    refine ⟨ts, t, rest, fs, gs, hd ▸ hr.rest, ht, hr.noEnd, ?_, htold, hd ▸ hwait⟩
    rw [hr.faults, List.append_nil, List.reverse_append]
  · cases h

section

variable {front : List Token} {last : Token} {fs gs : List SyntaxFault}

lemma line_lt_of_told (hlines : (front ++ [last]).Pairwise (·.line < ·.line)) (h : Told front fs) :
    ∀ f ∈ fs, f.line < last.line := by
  intro f hf
  obtain ⟨t, ht, hline⟩ := List.mem_map.mp (h.once.subset (List.mem_map_of_mem hf))
  rw [← hline]
  exact (List.pairwise_append.mp hlines).2.2 t ht last (List.mem_singleton_self last)

lemma pairwise_line_ne (hlines : front.Pairwise (·.line < ·.line)) (h : Told front fs) :
    fs.reverse.Pairwise (·.line ≠ ·.line) := by
  have hnodup : (front.map (·.line)).Nodup := List.pairwise_map.mpr (hlines.imp Nat.ne_of_lt)
  obtain ⟨ls, hperm, hsub⟩ := h.once
  have hfs : (fs.map (·.line)).Nodup := hperm.nodup_iff.mp (hnodup.sublist hsub)
  exact List.pairwise_reverse.mpr ((List.pairwise_map.mp hfs).imp Ne.symm)

lemma pairwise_line_le (hlines : front.Pairwise (·.line < ·.line)) (h : Told front fs) :
    (fs.reverse.filter (!·.isBadTarget)).Pairwise (·.line ≤ ·.line) := by
  have hsorted : (front.map (·.line)).reverse.Pairwise (· ≥ ·) :=
    List.pairwise_reverse.mpr (List.pairwise_map.mpr (hlines.imp Nat.le_of_lt))
  have hfs := List.pairwise_map.mp (hsorted.sublist h.ordered)
  rw [List.filter_reverse]
  exact List.pairwise_reverse.mpr hfs

end

theorem ofTokens_faults_once_in_order (front : List Token) (last : Token) (hf : ∀ t ∈ front, t.isEof = false)
    (hl : last.isEof = true) (hlines : (front ++ [last]).Pairwise (·.line < ·.line)) :
    ∃ parsed, ofTokens (front ++ [last]) = .ok parsed ∧
      parsed.faults.Pairwise (fun f g => f.line = g.line → f.line = last.line) ∧
      (parsed.faults.filter (·.kind != .invalidAssignmentTarget)).Pairwise (·.line ≤ ·.line) ∧
      ∃ first braces, parsed.faults.filter (·.line == last.line) = first ++ braces ∧ first.length ≤ 1 ∧
        (∀ f ∈ first, f.kind ≠ .expectRightBrace) ∧ ∀ f ∈ braces, f.kind = .expectRightBrace := by
  obtain ⟨parsed, hparsed⟩ := exists_ofTokens (List.mem_append_right front (List.mem_singleton_self last)) hl
  obtain ⟨ts, t, rest, fs, gs, hts, ht, hno, hfaults, htold, hwait⟩ := ofTokens_tells hparsed
  obtain rfl := eq_of_append_end hno hf ht hts
  obtain ⟨rfl, -⟩ := List.cons.inj (List.append_cancel_left hts)
  have hbefore : ∀ f ∈ fs.reverse, f.line < last.line := by simpa using line_lt_of_told hlines htold
  have hat : ∀ g ∈ gs.reverse, g.line = last.line := by simpa using hwait.line_eq
  have hfront := (List.pairwise_append.mp hlines).1
  refine ⟨parsed, hparsed, ?_, ?_, ?_⟩
  · rw [hfaults, List.pairwise_append]
    refine ⟨(pairwise_line_ne hfront htold).imp fun hne heq => absurd heq hne, ?_, ?_⟩
    · exact List.pairwise_of_forall_mem_list fun f hf _ _ _ => hat f hf
    · exact fun f _ g hg heq => heq.trans (hat g hg)
  · change (parsed.faults.filter (!·.isBadTarget)).Pairwise (·.line ≤ ·.line)
    rw [hfaults, List.filter_append, List.pairwise_append]
    refine ⟨pairwise_line_le hfront htold, ?_, ?_⟩
    · refine List.pairwise_of_forall_mem_list fun f hf g hg => ?_
      rw [hat f (List.mem_of_mem_filter hf), hat g (List.mem_of_mem_filter hg)]
    · intro f hf g hg
      rw [hat g (List.mem_of_mem_filter hg)]
      exact (hbefore f (List.mem_of_mem_filter hf)).le
  · have hnone : fs.reverse.filter (·.line == last.line) = [] := by
      rw [List.filter_eq_nil_iff]
      intro f hf
      simpa using (hbefore f hf).ne
    have hall : gs.reverse.filter (·.line == last.line) = gs.reverse := by
      rw [List.filter_eq_self]
      intro g hg
      simpa using hat g hg
    rw [hfaults, List.filter_append, hnone, hall, List.nil_append]
    exact hwait.exists_reverse

def piledFaults : List Token :=
  -- `{ nil = nil = nil } { { print`, each token on a line of its own.
  [⟨.symbol .leftBrace, "\x7b", 1⟩, ⟨.keyword .nilKw, "nil", 2⟩, ⟨.symbol .equal, "=", 3⟩, ⟨.keyword .nilKw, "nil", 4⟩,
    ⟨.symbol .equal, "=", 5⟩, ⟨.keyword .nilKw, "nil", 6⟩, ⟨.symbol .rightBrace, "\x7d", 7⟩,
    ⟨.symbol .leftBrace, "\x7b", 8⟩, ⟨.symbol .leftBrace, "\x7b", 9⟩, ⟨.keyword .printKw, "print", 10⟩]

theorem ofTokens_faults_once_in_order_piledFaults :
    (∀ t ∈ piledFaults, t.isEof = false) ∧ (Token.endAt 11).isEof = true ∧
      (piledFaults ++ [Token.endAt 11]).Pairwise (·.line < ·.line) ∧
      ∃ parsed, ofTokens (piledFaults ++ [Token.endAt 11]) = .ok parsed ∧
        parsed.faults = [⟨.invalidAssignmentTarget, 5, .atLexeme "="⟩, ⟨.invalidAssignmentTarget, 3, .atLexeme "="⟩,
          ⟨.expectSemicolonAfterExpression, 7, .atLexeme "\x7d"⟩, ⟨.expectExpression, 11, .atEnd⟩,
          ⟨.expectRightBrace, 11, .atEnd⟩, ⟨.expectRightBrace, 11, .atEnd⟩] ∧
        parsed.faults.Pairwise (fun f g => f.line = g.line → f.line = 11) ∧
        (parsed.faults.filter (·.kind != .invalidAssignmentTarget)).Pairwise (·.line ≤ ·.line) ∧
        ∃ first braces, parsed.faults.filter (·.line == 11) = first ++ braces ∧ first.length ≤ 1 ∧
          (∀ f ∈ first, f.kind ≠ .expectRightBrace) ∧ ∀ f ∈ braces, f.kind = .expectRightBrace := by
  have hf : ∀ t ∈ piledFaults, t.isEof = false := by decide
  have hlines : (piledFaults ++ [Token.endAt 11]).Pairwise (·.line < ·.line) := by decide
  have hrun : (ofTokens (piledFaults ++ [Token.endAt 11])).map (·.faults) =
      .ok [⟨.invalidAssignmentTarget, 5, .atLexeme "="⟩, ⟨.invalidAssignmentTarget, 3, .atLexeme "="⟩,
        ⟨.expectSemicolonAfterExpression, 7, .atLexeme "\x7d"⟩, ⟨.expectExpression, 11, .atEnd⟩,
        ⟨.expectRightBrace, 11, .atEnd⟩, ⟨.expectRightBrace, 11, .atEnd⟩] := by decide +kernel
  obtain ⟨parsed, hparsed, hfaults⟩ := ofTokens_faults_once_in_order piledFaults (Token.endAt 11) hf rfl hlines
  rw [hparsed] at hrun
  exact ⟨hf, rfl, hlines, parsed, hparsed, Except.ok.inj hrun, hfaults⟩

end Parsed

end Lox
