import Lox.Proofs.Parse.Recursion

/-! The loops of the parser end. They are told here round by round and without a bound: a round that does not leave its
loop takes a token, so there are no more rounds than tokens, with an end mark or without one. -/

namespace Lox

open Lox.Layer

namespace Parser

section

variable {α σ : Type}

/-- A loop that ends: rounds are run, each where the last one ended, until one leaves with a value or stops. -/
inductive Loops (round : σ → Parser (α ⊕ σ)) : σ → Cursor → EStateM.Result Stop Cursor α → Prop
  | leave {s : σ} {c d : Cursor} {a : α} : round s c = .ok (.inl a) d → Loops round s c (.ok a d)
  | stop {s : σ} {c d : Cursor} {x : Stop} : round s c = .error x d → Loops round s c (.error x d)
  | again {s s' : σ} {c d : Cursor} {r : EStateM.Result Stop Cursor α} :
      round s c = .ok (.inr s') d → Loops round s' d r → Loops round s c r

def IsLoop (round : σ → Parser (α ⊕ σ)) (s : σ) (p : Parser α) : Prop :=
  ∀ c r, Loops round s c r ↔ p c = r

variable {round : σ → Parser (α ⊕ σ)} {p : σ → Parser α}

lemma Loops.eq (hp : ∀ s, p s = round s >>= Sum.elim pure p) {s : σ} {c : Cursor} {r : EStateM.Result Stop Cursor α}
    (h : Loops round s c r) : p s c = r := by
  induction h with
  | leave hr =>
    rw [hp, bind_eq_of_ok hr]
    rfl
  | stop hr => rw [hp, bind_eq_of_error hr]
  | again hr _ ih =>
    rw [hp, bind_eq_of_ok hr]
    exact ih

lemma isLoop_of_takes (hp : ∀ s, p s = round s >>= Sum.elim pure p)
    (ht : ∀ s s' c d, round s c = .ok (.inr s') d → d.rest.length < c.rest.length) (s : σ) : IsLoop round s (p s) := by
  refine fun c r => ⟨Loops.eq hp, ?_⟩
  rintro rfl
  -- on the number of tokens left, whatever the loop carries along
  induction hn : c.rest.length using Nat.strong_induction_on generalizing s c with
  | h n ih =>
    rw [hp]
    cases hr : round s c with
    | error x d =>
      rw [bind_eq_of_error hr]
      exact .stop hr
    | ok r d =>
      rw [bind_eq_of_ok hr]
      cases r with
      | inl a => exact .leave hr
      | inr s' => exact .again hr (ih _ (hn ▸ ht s s' c d hr) s' d rfl)

end

def declarationRound (ends : Token.Kind → Bool) (declaration : Parser (Option Stmt)) (done : List Stmt) :
    Parser (List Stmt ⊕ List Stmt) := do
  let t ← peek
  if ends t.kind then return .inl done
  else
    let o ← declaration
    return .inr (done ++ o.toList)

section

variable {ends : Token.Kind → Bool} {p : Parser (Option Stmt)}

lemma declarationRound_takes (hp : Progresses ends p) {done done' : List Stmt} {c d : Cursor}
    (h : declarationRound ends p done c = .ok (.inr done') d) : d.rest.length < c.rest.length := by
  obtain ⟨_ | ⟨t, rest⟩, n, fs⟩ := c
  · cases h
  · rw [declarationRound, bind_eq_of_ok peek_cons] at h
    cases ht : ends t.kind with
    | true =>
      rw [if_pos ht] at h
      cases h
    | false =>
      rw [ht, if_neg Bool.false_ne_true] at h
      cases ho : p ⟨t :: rest, n, fs⟩ with
      | error x e =>
        rw [bind_eq_of_error ho] at h
        cases h
      | ok o e =>
        rw [bind_eq_of_ok ho] at h
        cases h
        exact (hp _ t rest rfl ht).ok ho

lemma declarations_eq (hp : Progresses ends p) :
    declarations ends p = (do
      let t ← peek
      if ends t.kind then return []
      else
        let o ← p
        (o.toList ++ ·) <$> declarations ends p) := by
  funext ⟨rest, n, fs⟩
  cases rest with
  | nil => rfl
  | cons t rest =>
    have hwithin : declarations ends p ⟨t :: rest, n, fs⟩ =
        (Array.toList <$> declarationsWithin ends p #[] (rest.length + 1)) ⟨t :: rest, n, fs⟩ := rfl
    rw [declarationsWithin, map_bind, bind_eq_of_ok peek_cons] at hwithin
    rw [bind_eq_of_ok peek_cons]
    cases ht : ends t.kind with
    | true =>
      rw [hwithin, ht]
      rfl
    | false =>
      rw [if_neg Bool.false_ne_true]
      cases ho : p ⟨t :: rest, n, fs⟩ with
      | error x e =>
        rw [hwithin, ht, if_neg Bool.false_ne_true, map_bind, bind_eq_of_error ho, bind_eq_of_error ho]
      | ok o e =>
        rw [bind_eq_of_ok ho]
        exact declarations_cons hp rfl ht ho

lemma declarations_eq_round (hp : Progresses ends p) (done : List Stmt) :
    (done ++ ·) <$> declarations ends p =
      declarationRound ends p done >>= Sum.elim pure fun done => (done ++ ·) <$> declarations ends p := by
  conv_lhs => rw [declarations_eq hp]
  rw [declarationRound, map_bind, bind_assoc]
  congr 1
  funext t
  split <;> simp

lemma isLoop_declarations (hp : Progresses ends p) : IsLoop (declarationRound ends p) [] (declarations ends p) := by
  have h := isLoop_of_takes (declarations_eq_round hp) (fun _ _ _ _ => declarationRound_takes hp) []
  simpa using h

end

/-- Whether skipping goes on behind a skipped token, and with how many skipped `{` open. -/
def skipBehind (braces : ℕ) (t : Token) : Parser (Unit ⊕ ℕ) := do
  if braces == 0 && t.kind == .symbol .semicolon then return .inl ()
  else if bracesBehind braces t.kind == 0 then
    let next ← peek
    if next.kind.startsStatement then return .inl () else return .inr 0
  else return .inr (bracesBehind braces t.kind)

def skipRound (inBlock : Bool) (braces : ℕ) : Parser (Unit ⊕ ℕ) := do
  let t ← peek
  if t.isEof then return .inl ()
  else if inBlock && braces == 0 && t.kind == .symbol .rightBrace then return .inl ()
  else skipBehind braces (← advance)

section

variable (inBlock : Bool)

def skip (braces : ℕ) : Parser Unit := fun c =>
  match boundary inBlock braces c.rest with
  | some rest => .ok () { c with rest }
  | none => .error (.internal .missingEnd) { c with rest := [] }

lemma skipBehind_rest {braces : ℕ} {t : Token} {c d : Cursor} {r : Unit ⊕ ℕ} (h : skipBehind braces t c = .ok r d) :
    d = c := by
  rw [skipBehind] at h
  split at h
  · cases h
    rfl
  · split at h
    · obtain ⟨_ | ⟨u, us⟩, n, fs⟩ := c
      · cases h
      · rw [bind_eq_of_ok peek_cons] at h
        split at h <;> cases h <;> rfl
    · cases h
      rfl

lemma skipRound_takes {braces braces' : ℕ} {c d : Cursor}
    (h : skipRound inBlock braces c = .ok (.inr braces') d) : d.rest.length < c.rest.length := by
  obtain ⟨_ | ⟨t, rest⟩, n, fs⟩ := c
  · cases h
  · rw [skipRound, bind_eq_of_ok peek_cons] at h
    cases ht : t.isEof with
    | true =>
      rw [if_pos ht] at h
      cases h
    | false =>
      rw [ht, if_neg Bool.false_ne_true] at h
      split at h
      · cases h
      · rw [bind_eq_of_ok (advance_cons ht)] at h
        rw [skipBehind_rest h]
        exact Nat.lt_succ_self _

lemma skip_cons {braces : ℕ} {t : Token} {rest : List Token} {n : ℕ} {fs : List SyntaxFault} (ht : t.isEof = false)
    (hb : (inBlock && braces == 0 && t.kind == .symbol .rightBrace) = false) :
    skip inBlock braces ⟨t :: rest, n, fs⟩ = (skipBehind braces t >>= Sum.elim pure (skip inBlock)) ⟨rest, n, fs⟩ := by
  simp only [skip, boundary, ht, hb, Bool.false_eq_true, if_false, skipBehind]
  cases hs : braces == 0 && t.kind == .symbol .semicolon with
  | true => rfl
  | false =>
    cases hopen : bracesBehind braces t.kind == 0 with
    | false => rfl
    | true =>
      rw [eq_of_beq hopen]
      -- the next token is looked at, and the tokens may run out here
      cases rest with
      | nil => rfl
      | cons u us =>
        simp only [Bool.false_eq_true, if_false, if_true, bind_assoc, bind_eq_of_ok peek_cons, List.head?_cons,
          Option.any_some, Bool.true_and]
        cases u.kind.startsStatement <;> rfl

lemma skip_eq_round (braces : ℕ) : skip inBlock braces = skipRound inBlock braces >>= Sum.elim pure (skip inBlock) := by
  funext ⟨rest, n, fs⟩
  cases rest with
  | nil => rfl
  | cons t rest =>
    rw [skipRound, bind_assoc, bind_eq_of_ok peek_cons]
    cases ht : t.isEof with
    | true =>
      simp only [skip, boundary, ht, if_true]
      rfl
    | false =>
      cases hb : inBlock && braces == 0 && t.kind == .symbol .rightBrace with
      | true =>
        simp only [skip, boundary, ht, hb, if_true]
        rfl
      | false =>
        rw [skip_cons inBlock ht hb]
        simp only [if_neg Bool.false_ne_true]
        rw [bind_assoc, bind_eq_of_ok (advance_cons ht)]

lemma isLoop_synchronize : IsLoop (skipRound inBlock) 0 (synchronize inBlock) :=
  isLoop_of_takes (skip_eq_round inBlock) (fun _ _ _ _ => skipRound_takes inBlock) 0

end

end Parser

namespace Parsed

open Lox.Parser

def ofResult : EStateM.Result Stop Cursor (List Stmt) → Except Failure Parsed
  | .ok statements c => .ok ⟨statements, c.faults.reverse⟩
  | .error stop _ => .error stop.toFailure

lemma ofTokens_eq_whole (tokens : List Token) :
    ofTokens tokens = ofResult (declarations (· == .eof) (recovering false whole.declaration) ⟨tokens, 0, []⟩) := by
  have hunits := MovedAt.declarations (· == .eof) (.recovering false (whole_moving 0).declaration)
  rw [hunits.eq_of_id Stmt.mapLineEach_id rfl]
  rfl

end Parsed

namespace Layer

open Lox.Parser

lemma recovering_whole_progresses {inBlock : Bool} {ends : Token.Kind → Bool}
    (hends : ∀ k, ends k = false → k ≠ .eof ∧ (inBlock = true → k ≠ .symbol .rightBrace)) :
    Progresses ends (recovering inBlock whole.declaration) := by
  intro c
  exact recovering_progresses (above_local (maxNesting - c.depth)) (above_takes _) hends c

lemma ends_recovering_whole_shorter {inBlock : Bool} {c : Cursor} {t : Token} {rest : List Token}
    (hc : c.rest = t :: rest) (ht : t.isEof = false) (hb : inBlock = true → t.kind ≠ .symbol .rightBrace) :
    Ends (recovering inBlock whole.declaration) c (fun _ d => d.rest.length < c.rest.length) fun _ _ => True := by
  have hprogress : Progresses (fun k => k == .eof || (inBlock && k == .symbol .rightBrace))
      (recovering inBlock whole.declaration) := by
    apply recovering_whole_progresses
    intro k hk
    simpa using hk
  apply hprogress c t rest hc
  simpa [Token.isEof] using And.intro ht hb

theorem whole_progresses :
    (∀ (inBlock : Bool) (c : Cursor) (t : Token) (rest : List Token), c.rest = t :: rest → t.isEof = false →
      (inBlock = true → t.kind ≠ .symbol .rightBrace) →
      Ends (recovering inBlock whole.declaration) c (fun _ d => d.rest <:+ c.rest ∧ d.rest.length < c.rest.length)
        (fun x d => x = .internal .missingEnd ∧ d.rest = [] ∧ ∀ u ∈ c.rest, u.isEof = false)) ∧
    IsLoop (declarationRound (· == .eof) (recovering false whole.declaration)) []
      (declarations (· == .eof) (recovering false whole.declaration)) ∧
    (∀ tokens, Parsed.ofTokens tokens =
      Parsed.ofResult (declarations (· == .eof) (recovering false whole.declaration) ⟨tokens, 0, []⟩)) ∧
    IsLoop (declarationRound (fun k => k == .symbol .rightBrace || k == .eof) (recovering true whole.declaration)) []
      (declarations (fun k => k == .symbol .rightBrace || k == .eof) (recovering true whole.declaration)) ∧
    whole.block = Parser.block whole.declaration ∧
    ∀ inBlock : Bool, IsLoop (skipRound inBlock) 0 (synchronize inBlock) := by
  refine ⟨?_, ?_, Parsed.ofTokens_eq_whole, ?_, ?_, isLoop_synchronize⟩
  · intro inBlock c t rest hc ht hb
    apply ((ends_recovering_whole inBlock c).and (ends_recovering_whole_shorter hc ht hb)).mono
    · exact fun o d h => ⟨h.1.2, h.2⟩
    · exact fun x d h => h.1.2
  · exact isLoop_declarations (recovering_whole_progresses fun k hk => ⟨by simpa using hk, by simp⟩)
  · refine isLoop_declarations (recovering_whole_progresses fun k hk => ?_)
    simp only [Bool.or_eq_false_iff, beq_eq_false_iff_ne] at hk
    exact ⟨hk.2, fun _ => hk.1⟩
  · exact block_whole

def strayParen : Cursor :=
  -- `)}` inside a block: the fault is where the declaration begins, and right before the `}` that ends the block.
  ⟨[⟨.symbol .rightParen, ")", 1⟩, ⟨.symbol .rightBrace, "\x7d", 1⟩, Token.endAt 1], 1, []⟩

theorem whole_progresses_strayParen :
    ∃ d, recovering true whole.declaration strayParen = .ok none d ∧ d.rest = strayParen.rest.tail ∧
      d.rest <:+ strayParen.rest ∧ d.rest.length < strayParen.rest.length := by
  have h : recovering true whole.declaration strayParen =
      .ok none ⟨strayParen.rest.tail, 1, [⟨.expectExpression, 1, .atLexeme ")"⟩]⟩ := rfl
  exact ⟨_, h, rfl, (whole_progresses.1 true strayParen _ _ rfl rfl (fun _ => by decide)).ok h⟩

end Layer

end Lox
