import Lox.Proofs.Parse.Braces

/-! Blocks and their braces. Where the parser stands inside `k` blocks, `k` braces are open in the tokens behind it,
whatever faults it has recovered from, and only where the tokens end can more of them be open. -/

namespace Lox

open Lox.Layer

def SyntaxFault.isUnclosed (f : SyntaxFault) : Bool :=
  f.kind == .expectRightBrace

/-- From `c` to `d` as many braces are opened for good as there are faults about an open block, or more. Where the
tokens go on there are none of either. -/
def Cursor.Settles (inBlock : Bool) (c d : Cursor) : Prop :=
  ∃ ts fs k, c.Reads ts fs d ∧ Opens inBlock k ts ∧ fs.countP SyntaxFault.isUnclosed ≤ k ∧ (k = 0 ∨ AtEnd d.rest)

namespace Cursor.Settles

variable {inBlock : Bool} {c d e : Cursor}

lemma refl (c : Cursor) : c.Settles inBlock c :=
  ⟨[], [], 0, .still rfl rfl, .nil, le_rfl, .inl rfl⟩

lemma anywhere (h : c.Settles true d) : c.Settles inBlock d := by
  obtain ⟨ts, fs, k, hr, ho, hf, hk⟩ := h
  exact ⟨ts, fs, k, hr, ho.anywhere, hf, hk⟩

lemma withDepths {m : ℕ} (h : Cursor.Settles inBlock { c with depth := m } d) (n : ℕ) :
    c.Settles inBlock { d with depth := n } := by
  obtain ⟨ts, fs, k, hr, ho⟩ := h
  exact ⟨ts, fs, k, ⟨hr.rest, hr.faults, hr.noEnd⟩, ho⟩

lemma trans (h : c.Settles inBlock d) (hd : ¬AtEnd d.rest) (hn : d.Settles inBlock e) : c.Settles inBlock e := by
  obtain ⟨ts, fs, k, hr, ho, hf, hk⟩ := h
  obtain ⟨us, gs, l, hr', ho', hg, hl⟩ := hn
  obtain rfl := hk.resolve_right hd
  refine ⟨ts ++ us, gs ++ fs, l, hr.trans hr', ho.append ho', ?_, hl⟩
  rw [List.countP_append]
  omega

lemma skip (h : c.Settles true d) (inBlock : Bool) (n : ℕ) :
    c.Settles inBlock ⟨(Parser.boundary inBlock 0 d.rest).getD [], n, d.faults⟩ := by
  obtain ⟨ts, fs, k, hr, ho, hf, hk⟩ := h
  rcases hk with rfl | hend
  · obtain ⟨us, l, hus, hno, hafter, hl⟩ := Parser.exists_skipped inBlock 0 d.rest
    have hskip : d.Reads us [] ⟨(Parser.boundary inBlock 0 d.rest).getD [], n, d.faults⟩ := ⟨hus, rfl, hno⟩
    exact ⟨ts ++ us, fs, l, hr.trans hskip, ho.anywhere.append hafter, by omega, hl⟩
  · -- braces may be open for good already, but there is nothing left to skip
    rw [Parser.boundary_of_atEnd hend]
    exact ⟨ts, fs, k, ⟨hr.rest, hr.faults, hr.noEnd⟩, ho.anywhere, hf, .inr hend⟩

end Cursor.Settles

lemma Cursor.Spans.settles {c d : Cursor} (h : c.Spans d) : c.Settles true d := by
  obtain ⟨ts, fs, hr, hts, hfs⟩ := h
  have hnone : fs.countP SyntaxFault.isUnclosed = 0 := by
    rw [List.countP_eq_zero]
    intro f hf
    rw [SyntaxFault.isUnclosed, Parsed.badTargets_of_subperm hfs f hf]
    decide
  exact ⟨ts, fs, 0, hr, .of_isInner hts, hnone.le, .inl rfl⟩

def Stop.Settled (c d : Cursor) : Stop → Prop
  | .fault f => c.Settles true { d with faults := f :: d.faults }
  | .internal _ => c.Settles true d ∧ d.rest = []

lemma Cursor.Spans.settled {c d : Cursor} {x : Stop} (h : c.Spans d) (hx : x.StandsAt d.rest) : x.Settled c d := by
  cases x with
  | internal f => exact ⟨h.settles, hx⟩
  | fault f =>
    obtain ⟨ts, fs, k, hr, ho, hf, hk⟩ := h.settles
    obtain ⟨-, -, -, -, -, hkind⟩ := hx
    refine ⟨ts, f :: fs, k, ⟨hr.rest, by rw [hr.faults, List.cons_append], hr.noEnd⟩, ho, ?_, hk⟩
    rw [List.countP_cons_of_neg (by simpa [SyntaxFault.isUnclosed] using hkind)]
    exact hf

lemma Cursor.Closes.settles {c d : Cursor} (h : c.Closes d) : c.Settles true d := by
  obtain ⟨e, t, hs, ht, he, hfaults⟩ := h
  have hnot : ¬AtEnd e.rest := by simp [AtEnd, he, Token.isEof, ht]
  have hsemi : Opens true 0 [t] := .of_bracesBehind fun n => by rw [ht]; rfl
  refine hs.settles.trans hnot ⟨[t], [], 0, ⟨he, hfaults, by simp [Token.isEof, ht]⟩, hsemi, le_rfl, .inl rfl⟩

def Verdict.settling : Verdict where
  ok c d := c.Settles true d
  stop c x d := x.Settled c d
  closes := Cursor.Closes.settles
  stands := Cursor.Spans.settled
  ok_depth n h := h.withDepths n
  stop_depth {_ _ x} _ n h := by
    cases x with
    | fault f => exact Cursor.Settles.withDepths h n
    | internal f => exact ⟨h.1.withDepths n, h.2⟩

namespace Parser

variable {α : Type} {c : Cursor}

abbrev SettlesAt (p : Parser α) (c : Cursor) : Prop :=
  Ends p c (fun _ d => c.Settles true d) (fun e d => e.Settled c d)

lemma recovering_settles (inBlock : Bool) {p : Parser Stmt} (hp : SettlesAt p c) :
    Ends (recovering inBlock p) c (fun _ d => c.Settles inBlock d) (fun _ d => c.Settles inBlock d ∧ d.rest = []) := by
  apply ends_recovering
  · exact fun s d hs => (hp.ok hs).anywhere
  · intro f d rest hf hb
    have hskip := Cursor.Settles.skip (hp.stop hf) inBlock c.depth
    rwa [hb] at hskip
  · intro f d hf hb
    have hskip := Cursor.Settles.skip (hp.stop hf) inBlock c.depth
    rw [hb] at hskip
    exact ⟨hskip, rfl⟩
  · exact fun f d hf => ⟨(hp.stop hf).1.anywhere, (hp.stop hf).2⟩

lemma not_atEnd {t : Token} {rest ts : List Token} (hts : ts = t :: rest) (ht : t.kind ≠ .eof) : ¬AtEnd ts := by
  simpa [AtEnd, hts, Token.isEof] using ht

lemma declarations_settle {inBlock : Bool} {ends : Token.Kind → Bool} {p : Parser Stmt} (hp : ∀ c, SettlesAt p c)
    (hprogress : Progresses ends (recovering inBlock p)) (hends : ends .eof = true) (c : Cursor) :
    Ends (declarations ends (recovering inBlock p)) c
      (fun _ d => c.Settles inBlock d ∧ ∃ t rest, d.rest = t :: rest ∧ ends t.kind = true)
      (fun _ d => c.Settles inBlock d ∧ d.rest = []) := by
  apply ends_declarations (fun _ d => c.Settles inBlock d) (.refl c)
  · intro done d t rest hd hr ht
    have hnot : ¬AtEnd d.rest := not_atEnd hr fun heof => by simp [heof, hends] at ht
    apply ((recovering_settles inBlock (hp d)).and (hprogress d t rest hr ht)).mono
    · exact fun o e h => ⟨hd.trans hnot h.1, h.2⟩
    · exact fun x e h => ⟨hd.trans hnot h.1.1, h.1.2⟩
  · exact fun _ d hd hr => ⟨hd, hr⟩

lemma ends_braced {p : Parser Stmt} {left : Token} {rest : List Token} {inv : Cursor → Prop}
    {ok : List Stmt → Cursor → Prop} {stop : Stop → Cursor → Prop} (hc : c.rest = left :: rest)
    (hleft : left.kind = .symbol .leftBrace)
    (hbody : Ends (declarations (fun k => k == .symbol .rightBrace || k == .eof) (recovering true p)) { c with rest }
      (fun _ d => inv d ∧ ∃ t rest, d.rest = t :: rest ∧ (t.kind == .symbol .rightBrace || t.kind == .eof) = true) stop)
    (hclose : ∀ body d right rest, inv d → d.rest = right :: rest → right.kind = .symbol .rightBrace →
      ok body { d with rest })
    (hopen : ∀ d last rest, inv d → d.rest = last :: rest → last.kind = .eof →
      stop (.fault (.ofToken .expectRightBrace last)) d) :
    Ends (block p) c ok stop := by
  have hadvance : advance c = .ok left { c with rest } := by simp [advance, hc, Token.isEof, hleft]
  rw [block, ends_bind]
  apply ends_of_ok hadvance
  rw [ends_bind]
  apply hbody.mono _ fun _ _ => id
  rintro body ⟨_, n, gs⟩ ⟨hinv, t, rest, rfl, hend⟩
  rw [ends_bind]
  by_cases hb : t.kind = .symbol .rightBrace
  · exact ends_of_ok (expectSymbol_cons hb) (hclose body _ t rest hinv rfl hb)
  · exact ends_of_error (expectSymbol_other hb) (hopen _ t rest hinv rfl (by simpa [hb] using hend))

lemma block_ends {p : Parser Stmt} (hp : ∀ c, SettlesAt p c) (hl : Local p) (ht : Takes p) {left : Token}
    {rest : List Token} (hc : c.rest = left :: rest) (hleft : left.kind = .symbol .leftBrace) :
    Ends (block p) c
      (fun _ d => ∃ us fs right, c.Reads (left :: us ++ [right]) fs d ∧ Opens true 0 us ∧
        right.kind = .symbol .rightBrace ∧ fs.countP SyntaxFault.isUnclosed = 0)
      (fun x d => ∃ us fs k, c.Reads (left :: us) fs d ∧ Opens true k us ∧ fs.countP SyntaxFault.isUnclosed ≤ k ∧
        AtEnd d.rest ∧ ∀ f, x = .internal f → d.rest = []) := by
  have hstart : c.Reads [left] [] { c with rest } := ⟨hc, rfl, by simp [Token.isEof, hleft]⟩
  have hread {us : List Token} {fs : List SyntaxFault} {d : Cursor} (hr : Cursor.Reads { c with rest } us fs d) :
      c.Reads (left :: us) fs d := by simpa using hstart.trans hr
  have hbody := declarations_settle hp (recovering_progresses hl ht fun _ => ends_block) rfl { c with rest }
  apply ends_braced hc hleft (hbody.mono (fun _ _ => id) ?_)
  · rintro body d right rest' ⟨us, fs, k, hr, ho, hf, hk⟩ hd hright
    have hlast : d.Reads [right] [] { d with rest := rest' } := ⟨hd, rfl, by simp [Token.isEof, hright]⟩
    obtain rfl := hk.resolve_right (not_atEnd hd (by simp [hright]))
    exact ⟨us, fs, right, (hread hr).trans hlast, ho, hright, Nat.le_zero.mp hf⟩
  · rintro d last rest' ⟨us, fs, k, hr, ho, hf, -⟩ hd heof
    exact ⟨us, fs, k, hread hr, ho, hf, by simp [AtEnd, hd, Token.isEof, heof], fun f hx => by cases hx⟩
  · rintro x d ⟨⟨us, fs, k, hr, ho, hf, -⟩, hnil⟩
    exact ⟨us, fs, k, hread hr, ho, hf, by simp [AtEnd, hnil], fun _ _ => hnil⟩

lemma block_settles {p : Parser Stmt} (hp : ∀ c, SettlesAt p c) (hl : Local p) (ht : Takes p) :
    Verdict.settling.AtBlock (block p) := by
  intro c left rest hc hleft
  apply (block_ends hp hl ht hc hleft).mono
  · rintro body d ⟨us, fs, right, hr, ho, hright, hf⟩
    exact ⟨_, fs, 0, hr, ho.enclose hleft hright, hf.le, .inl rfl⟩
  · rintro x d ⟨us, fs, k, hr, ho, hf, hend, hnil⟩
    cases x with
    | internal f => exact ⟨⟨_, fs, k + 1, hr, ho.cons hleft, by omega, .inr hend⟩, hnil f rfl⟩
    | fault f =>
      refine ⟨_, f :: fs, k + 1, ⟨hr.rest, by rw [hr.faults, List.cons_append], hr.noEnd⟩, ho.cons hleft, ?_, .inr hend⟩
      rw [List.countP_cons]
      split <;> omega

end Parser

lemma Layer.above_settles (k : ℕ) : ∀ c, (above k).declaration.SettlesAt c := by
  refine (above_simple (V := .settling) (fun k hdeclaration => ?_) k).declaration
  rw [above_block]
  exact Parser.block_settles hdeclaration (above_local k) (above_takes k)

namespace Parsed

lemma ofTokens_settles {tokens : List Token} {parsed : Parsed} (h : ofTokens tokens = .ok parsed) :
    ∃ ts t rest, tokens = ts ++ t :: rest ∧ t.isEof = true ∧ (∀ u ∈ ts, u.isEof = false) ∧
      parsed.faults.countP SyntaxFault.isUnclosed ≤ bracesAfter 0 ts := by
  have hsettle := Parser.declarations_settle (above_settles maxNesting) (unit_progresses maxNesting) rfl
    ⟨tokens, 0, []⟩
  simp only [ofTokens] at h
  split at h
  · rename_i body d hp
    cases h
    obtain ⟨⟨ts, fs, k, hr, ho, hf, -⟩, t, rest, hd, ht⟩ := hsettle.ok hp
    refine ⟨ts, t, rest, hd ▸ hr.rest, ht, hr.noEnd, ?_⟩
    rw [List.countP_reverse, hr.faults, List.append_nil, ho 0 (fun _ => rfl), Nat.zero_add]
    exact hf
  · cases h

theorem ofTokens_unclosed_le (front : List Token) (last : Token) (hf : ∀ t ∈ front, t.isEof = false)
    (hl : last.isEof = true) :
    ∃ parsed, ofTokens (front ++ [last]) = .ok parsed ∧
      parsed.faults.countP (·.kind == .expectRightBrace) ≤ (unclosed [] front).length ∧
      (unclosed [] front = [] → ∀ f ∈ parsed.faults, f.kind ≠ .expectRightBrace) := by
  obtain ⟨parsed, hparsed⟩ := exists_ofTokens (List.mem_append_right front (List.mem_singleton_self last)) hl
  obtain ⟨ts, t, rest, hts, ht, hno, hcount⟩ := ofTokens_settles hparsed
  obtain rfl := eq_of_append_end hno hf ht hts
  have hle : parsed.faults.countP (·.kind == .expectRightBrace) ≤ (unclosed [] ts).length := by
    rw [length_unclosed]
    exact hcount
  refine ⟨parsed, hparsed, hle, fun hnone f hfault hkind => ?_⟩
  rw [hnone, List.length_nil, Nat.le_zero, List.countP_eq_zero] at hle
  exact hle f hfault (by simp [hkind])

def openBlocks : List Token :=
  -- `}; {(; {`
  [⟨.symbol .rightBrace, "\x7d", 1⟩, ⟨.symbol .semicolon, ";", 1⟩, ⟨.symbol .leftBrace, "\x7b", 1⟩,
    ⟨.symbol .leftParen, "(", 1⟩, ⟨.symbol .semicolon, ";", 1⟩, ⟨.symbol .leftBrace, "\x7b", 1⟩]

theorem ofTokens_unclosed_le_openBlocks :
    (∀ t ∈ openBlocks, t.isEof = false) ∧ (Token.endAt 1).isEof = true ∧ (unclosed [] openBlocks).length = 2 ∧
      ofTokens (openBlocks ++ [Token.endAt 1]) =
        .ok ⟨[], [⟨.expectExpression, 1, .atLexeme "\x7d"⟩, ⟨.expectExpression, 1, .atLexeme ";"⟩,
          ⟨.expectRightBrace, 1, .atEnd⟩, ⟨.expectRightBrace, 1, .atEnd⟩]⟩ ∧
      2 ≤ (unclosed [] openBlocks).length := by
  have hf : ∀ t ∈ openBlocks, t.isEof = false := by decide
  have hrun : ofTokens (openBlocks ++ [Token.endAt 1]) =
      .ok ⟨[], [⟨.expectExpression, 1, .atLexeme "\x7d"⟩, ⟨.expectExpression, 1, .atLexeme ";"⟩,
        ⟨.expectRightBrace, 1, .atEnd⟩, ⟨.expectRightBrace, 1, .atEnd⟩]⟩ := by decide +kernel
  obtain ⟨parsed, hparsed, hle, -⟩ := ofTokens_unclosed_le openBlocks (Token.endAt 1) hf rfl
  obtain rfl := Except.ok.inj (hparsed.symm.trans hrun)
  exact ⟨hf, rfl, rfl, hrun, hle⟩

section

variable {body : List Token} {left right : Token} (hleft : left.kind = .symbol .leftBrace)
  (hright : right.kind = .symbol .rightBrace) (hno : ∀ t ∈ body, t.isEof = false) (hbal : Balanced body)

include hleft hright hno hbal

lemma exists_block (n : ℕ) :
    ∃ bs fs, (above n).block ⟨left :: (body ++ [right]), 1, []⟩ = .ok bs ⟨[], 1, fs⟩ := by
  have hends := Parser.block_ends (above_settles n) (above_local n) (above_takes n)
    (c := ⟨left :: (body ++ [right]), 1, []⟩) rfl hleft
  rw [← above_block] at hends
  cases hr : (above n).block ⟨left :: (body ++ [right]), 1, []⟩ with
  | ok bs d =>
    obtain ⟨us, fs, right', hread, ho, hright', -⟩ := hends.ok hr
    have hrest : body ++ right :: [] = us ++ right' :: d.rest := by simpa using hread.rest
    obtain ⟨-, hnil⟩ := hbal.opens.eq_of_close hright hright' ho hrest
    have hsound := (above_sound n 1).block (by decide) ⟨left :: (body ++ [right]), 1, []⟩ left _ rfl rfl hleft
    have hdepth : d.depth = 1 := (hsound.ok hr).depth_eq (by decide)
    exact ⟨bs, d.faults, by rw [hnil, ← hdepth]⟩
  | error x d =>
    -- a block stops only at the end of the tokens, and all of them would not hold the `}` behind the body
    obtain ⟨us, fs, k, hread, ho, -, hend, -⟩ := hends.stop hr
    have hrest : body ++ [right] = us ++ d.rest := by simpa using hread.rest
    have hnil : d.rest = [] := by
      refine hend.eq_nil fun t ht => ?_
      have hmem : t ∈ body ++ [right] := hrest ▸ List.mem_append_right us ht
      rcases List.mem_append.mp hmem with hbody | hlast
      · exact hno t hbody
      · rw [List.mem_singleton.mp hlast, Token.isEof, hright]
        rfl
    rw [hnil, List.append_nil] at hrest
    exact absurd (hrest ▸ ho) (hbal.opens.not_close hright)

lemma exists_unit_block :
    ∃ bs fs, unit ⟨left :: (body ++ [right]), 0, []⟩ = .ok (some (.block bs)) ⟨[], 0, fs⟩ := by
  obtain ⟨bs, fs, hblock⟩ := exists_block hleft hright hno hbal _
  exact ⟨bs, fs, Parser.recovering_of_ok (Stmt.declaration_of_block hleft (by decide) hblock)⟩

end

theorem ofTokens_block_append (body : List Token) (left right : Token) (hleft : left.kind = .symbol .leftBrace)
    (hright : right.kind = .symbol .rightBrace) (hno : ∀ t ∈ body, t.isEof = false) (hbal : Balanced body) :
    ∃ bs es, ∀ rest : List Token, (∃ t ∈ rest, t.isEof = true) → ∃ parsed, ofTokens rest = .ok parsed ∧
      ofTokens (left :: body ++ right :: rest) = .ok ⟨.block bs :: parsed.statements, es ++ parsed.faults⟩ := by
  obtain ⟨bs, fs, hunit⟩ := exists_unit_block hleft hright hno hbal
  refine ⟨bs, fs.reverse, ?_⟩
  rintro rest ⟨t, ht, he⟩
  obtain ⟨parsed, hparsed⟩ := exists_ofTokens ht he
  have happend := ofTokens_append_of_unit ⟨left, rfl, by simp [Token.isEof, hleft]⟩ hunit hparsed
  exact ⟨parsed, hparsed, by simpa using happend⟩

def brokenBody : List Token :=
  -- `) {(;} print`
  [⟨.symbol .rightParen, ")", 1⟩, ⟨.symbol .leftBrace, "\x7b", 1⟩, ⟨.symbol .leftParen, "(", 1⟩,
    ⟨.symbol .semicolon, ";", 1⟩, ⟨.symbol .rightBrace, "\x7d", 1⟩, ⟨.keyword .printKw, "print", 1⟩]

theorem ofTokens_block_append_brokenBody :
    (∀ t ∈ brokenBody, t.isEof = false) ∧ Balanced brokenBody ∧
      ofTokens (⟨.symbol .leftBrace, "\x7b", 1⟩ :: brokenBody ++ ⟨.symbol .rightBrace, "\x7d", 1⟩ :: printTrue) =
        .ok ⟨[.block [], .print (.literal (.bool true))],
          [⟨.expectExpression, 1, .atLexeme ")"⟩, ⟨.expectExpression, 1, .atLexeme "\x7d"⟩]⟩ := by
  have hno : ∀ t ∈ brokenBody, t.isEof = false := by decide
  have hbal : Balanced brokenBody := by decide
  have hown : ofTokens (⟨.symbol .leftBrace, "\x7b", 1⟩ :: brokenBody ++
      [⟨.symbol .rightBrace, "\x7d", 1⟩, Token.endAt 1]) =
      .ok ⟨[.block []], [⟨.expectExpression, 1, .atLexeme ")"⟩, ⟨.expectExpression, 1, .atLexeme "\x7d"⟩]⟩ := by
    decide +kernel
  have hprint : ofTokens printTrue = .ok ⟨[.print (.literal (.bool true))], []⟩ := by decide +kernel
  obtain ⟨bs, es, happend⟩ := ofTokens_block_append brokenBody ⟨.symbol .leftBrace, "\x7b", 1⟩
    ⟨.symbol .rightBrace, "\x7d", 1⟩ rfl rfl hno hbal
  obtain ⟨alone, halone, hblock⟩ := happend [Token.endAt 1] (by decide)
  obtain rfl := Except.ok.inj (halone.symm.trans (ofTokens_end rfl))
  obtain ⟨rfl, rfl⟩ : bs = [] ∧
      es = [⟨.expectExpression, 1, .atLexeme ")"⟩, ⟨.expectExpression, 1, .atLexeme "\x7d"⟩] := by
    simpa using Except.ok.inj (hblock.symm.trans hown)
  obtain ⟨parsed, hparsed, hboth⟩ := happend printTrue (by decide)
  obtain rfl := Except.ok.inj (hparsed.symm.trans hprint)
  exact ⟨hno, hbal, hboth⟩

end Parsed

end Lox
