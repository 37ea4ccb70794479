import Lox.Proofs.Parse.NoLoss
import Lox.Session

/-! A parser looks no further than the token where it stops, and not at the faults found so far. As long as it has not
run out of tokens, it does the same whatever follows them, and since it never takes an end mark, nothing behind the
first one is read. -/

namespace Lox

variable {α β : Type}

def Cursor.framed (us : List Token) (gs : List SyntaxFault) (c : Cursor) : Cursor :=
  { c with rest := c.rest ++ us, faults := c.faults ++ gs }

namespace Parser

/-- What is left is a tail of what there was, and if any token is left, then more of them behind change nothing, nor
do older faults. -/
structure Local (p : Parser α) : Prop where
  suffix : ∀ c, (stateAfter p c).rest <:+ c.rest
  same : ∀ c us gs, (stateAfter p c).rest ≠ [] → p (c.framed us gs) = mapState (Cursor.framed us gs) (p c)

namespace Local

section

variable {p : Parser α} {c d : Cursor}

lemma ok {a : α} (hp : Local p) (hr : p c = .ok a d) :
    d.rest <:+ c.rest ∧ (d.rest ≠ [] → ∀ us gs, p (c.framed us gs) = .ok a (d.framed us gs)) := by
  have hs := hp.suffix c
  have hm := hp.same c
  simp only [stateAfter, hr, mapState] at hs hm
  exact ⟨hs, fun hd us gs => hm us gs hd⟩

lemma stop {e : Stop} (hp : Local p) (hr : p c = .error e d) :
    d.rest <:+ c.rest ∧ (d.rest ≠ [] → ∀ us gs, p (c.framed us gs) = .error e (d.framed us gs)) := by
  have hs := hp.suffix c
  have hm := hp.same c
  simp only [stateAfter, hr, mapState] at hs hm
  exact ⟨hs, fun hd us gs => hm us gs hd⟩

lemma of_blind (hrest : ∀ c, (stateAfter p c).rest = c.rest)
    (hsame : ∀ c us gs, p (c.framed us gs) = mapState (Cursor.framed us gs) (p c)) : Local p :=
  ⟨fun c => hrest c ▸ List.suffix_rfl, fun c us gs _ => hsame c us gs⟩

lemma of_head (hnil : ∀ n fs, (stateAfter p ⟨[], n, fs⟩).rest = [])
    (hrest : ∀ t rest n fs, (stateAfter p ⟨t :: rest, n, fs⟩).rest <:+ t :: rest)
    (hsame : ∀ t rest n fs us gs,
      p ⟨t :: (rest ++ us), n, fs ++ gs⟩ = mapState (Cursor.framed us gs) (p ⟨t :: rest, n, fs⟩)) : Local p := by
  constructor
  · rintro ⟨_ | ⟨t, rest⟩, n, fs⟩
    · exact List.suffix_nil.mpr (hnil n fs)
    · exact hrest t rest n fs
  · rintro ⟨_ | ⟨t, rest⟩, n, fs⟩ us gs hne
    · exact absurd (hnil n fs) hne
    · exact hsame t rest n fs us gs

end

lemma pure (a : α) : Local (Pure.pure a : Parser α) :=
  of_blind (fun _ => rfl) fun _ _ _ => rfl

lemma throw (e : Stop) : Local (MonadExcept.throw e : Parser α) :=
  of_blind (fun _ => rfl) fun _ _ _ => rfl

lemma rest_ne_nil {c d : Cursor} (h : d.rest <:+ c.rest) (hd : d.rest ≠ []) : c.rest ≠ [] := by
  intro hc
  rw [hc] at h
  exact hd (List.suffix_nil.mp h)

lemma of_first {p : Parser α} {q : Parser β} (hp : Local p) {f : ℕ → α → Parser β} {g : ℕ → Stop → Parser β}
    (hf : ∀ n a, Local (f n a)) (hg : ∀ n e, Local (g n e)) (hok : ∀ {c a d}, p c = .ok a d → q c = f c.depth a d)
    (hstop : ∀ {c e d}, p c = .error e d → q c = g c.depth e d) : Local q := by
  constructor
  · intro c
    cases hr : p c with
    | ok a d =>
      rw [stateAfter, hok hr]
      exact ((hf c.depth a).suffix d).trans (hp.ok hr).1
    | error e d =>
      rw [stateAfter, hstop hr]
      exact ((hg c.depth e).suffix d).trans (hp.stop hr).1
  · intro c us gs hne
    cases hr : p c with
    | ok a d =>
      rw [stateAfter, hok hr] at hne
      have hsame := (hp.ok hr).2 (rest_ne_nil ((hf c.depth a).suffix d) hne) us gs
      rw [hok hsame, hok hr]
      exact (hf c.depth a).same d us gs hne
    | error e d =>
      rw [stateAfter, hstop hr] at hne
      have hsame := (hp.stop hr).2 (rest_ne_nil ((hg c.depth e).suffix d) hne) us gs
      rw [hstop hsame, hstop hr]
      exact (hg c.depth e).same d us gs hne

lemma bind {p : Parser α} {f : α → Parser β} (hp : Local p) (hf : ∀ a, Local (f a)) : Local (p >>= f) :=
  hp.of_first (fun _ => hf) (fun _ e => .throw e) bind_eq_of_ok bind_eq_of_error

lemma map {p : Parser α} (f : α → β) (hp : Local p) : Local (f <$> p) := by
  rw [map_eq_pure_bind]
  exact hp.bind fun a => .pure (f a)

lemma ite {b : Prop} [Decidable b] {p q : Parser α} (hp : Local p) (hq : Local q) : Local (if b then p else q) := by
  split
  · exact hp
  · exact hq

end Local

lemma peek_local : Local peek :=
  .of_head (fun _ _ => rfl) (fun _ _ _ _ => List.suffix_rfl) fun _ _ _ _ _ _ => rfl

lemma advance_local : Local advance := by
  apply Local.of_head
  · exact fun _ _ => rfl
  · intro t rest n fs
    by_cases ht : t.isEof = true <;> simp [stateAfter, advance, ht]
  · intro t rest n fs us gs
    by_cases ht : t.isEof = true <;> simp [advance, ht, mapState, Cursor.framed]

lemma failHere_local (kind : SyntaxFault.Kind) : Local (failHere kind : Parser α) :=
  peek_local.bind fun _ => .throw _

lemma record_local (f : SyntaxFault) : Local (record f) :=
  .of_blind (fun _ => rfl) fun _ _ _ => rfl

lemma depth_local : Local depth :=
  .of_blind (fun _ => rfl) fun _ _ _ => rfl

lemma setDepth_local (n : ℕ) : Local (setDepth n) :=
  .of_blind (fun _ => rfl) fun _ _ _ => rfl

lemma enter_local : Local enter :=
  depth_local.bind fun _ => .ite (failHere_local _) (setDepth_local _)

lemma nested_local {p : Parser α} (hp : Local p) : Local (nested p) := by
  apply enter_local.bind
  intro _
  refine hp.of_first (f := fun _ a d => .ok a { d with depth := d.depth - 1 })
    (g := fun _ e d => .error e { d with depth := d.depth - 1 }) ?_ ?_ ?_ ?_
  · exact fun _ a => .of_blind (fun _ => rfl) fun _ _ _ => rfl
  · exact fun _ e => .of_blind (fun _ => rfl) fun _ _ _ => rfl
  · intro c a d hr
    simp only [hr]
  · intro c e d hr
    simp only [hr]

lemma ifNext_framed {c : Cursor} (hc : c.rest ≠ []) (kinds : Token.Kind → Bool) (f : Token → Parser α) (p : Parser α)
    (us : List Token) (gs : List SyntaxFault) :
    (ifNext kinds f p c = p c ∧ ifNext kinds f p (c.framed us gs) = p (c.framed us gs)) ∨
      ∃ t rest, c.rest = t :: rest ∧ kinds t.kind = true ∧ ifNext kinds f p c = f t { c with rest } ∧
        ifNext kinds f p (c.framed us gs) = f t (Cursor.framed us gs { c with rest }) := by
  rcases ifNext_cases kinds f p c with ⟨hnot, h⟩ | ⟨t, rest, hr, ht, hk, h⟩
  · refine .inl ⟨h, ifNext_of_not f p ?_⟩
    rw [Cursor.framed, List.head?_append_of_ne_nil _ hc]
    exact hnot
  · refine .inr ⟨t, rest, hr, hk, h, ifNext_of_kind f p ?_ rfl (by simp [ht, hk])⟩
    simp only [Cursor.framed, hr, List.cons_append]

lemma ifNext_local {kinds : Token.Kind → Bool} {f : Token → Parser α} {p : Parser α}
    (hf : ∀ t, kinds t.kind = true → Local (f t)) (hp : Local p) : Local (ifNext kinds f p) := by
  have hsuffix (c : Cursor) : (stateAfter (ifNext kinds f p) c).rest <:+ c.rest := by
    rcases ifNext_cases kinds f p c with ⟨-, h⟩ | ⟨t, rest, hr, -, hk, h⟩
    · rw [stateAfter, h]
      exact hp.suffix c
    · rw [stateAfter, h, hr]
      exact ((hf t hk).suffix { c with rest }).trans (List.suffix_cons t rest)
  refine ⟨hsuffix, fun c us gs hne => ?_⟩
  rcases ifNext_framed (Local.rest_ne_nil (hsuffix c) hne) kinds f p us gs with ⟨h, hmore⟩ | ⟨t, rest, -, hk, h, hmore⟩
  · rw [stateAfter, h] at hne
    rw [hmore, h]
    exact hp.same c us gs hne
  · rw [stateAfter, h] at hne
    rw [hmore, h]
    exact (hf t hk).same _ us gs hne

lemma closing_local (s : Symbol) (kind : SyntaxFault.Kind) (a : α) : Local (closing s kind a) :=
  ifNext_local (fun _ _ => .pure a) (failHere_local kind)

lemma backUp_local {p : Parser α} (hp : Local p) : Local (backUp p) :=
  depth_local.bind fun base => hp.bind fun a => (setDepth_local base).bind fun _ => .pure a

lemma badTarget_local {deeper : Parser Expr} (hd : Local deeper) (left : Expr) : Local (badTarget deeper left) :=
  ifNext_local (fun _ _ => (nested_local hd).bind fun _ => (record_local _).bind fun _ => .pure left) (.pure left)

lemma braced_local {b : Parser (List Stmt)} {p : Parser Stmt} (hb : Local b) (hp : Local p) :
    Local (ifBrace (do return .block (← nested b)) p) :=
  peek_local.bind fun _ => .ite ((nested_local hb).bind fun _ => .pure _) hp

lemma boundary_append {inBlock : Bool} {braces : ℕ} {ts rest : List Token} (h : boundary inBlock braces ts = some rest)
    (us : List Token) : boundary inBlock braces (ts ++ us) = some (rest ++ us) := by
  induction ts generalizing braces with
  | nil => cases h
  | cons t ts ih =>
    rw [boundary] at h
    rw [List.cons_append, boundary]
    split at h
    · rename_i ht
      cases h
      rw [if_pos ht, List.cons_append]
    rename_i ht
    rw [if_neg ht]
    split at h
    · rename_i hb
      cases h
      rw [if_pos hb, List.cons_append]
    rename_i hb
    rw [if_neg hb]
    split at h
    · rename_i hs
      cases h
      rw [if_pos hs]
    rename_i hs
    rw [if_neg hs]
    -- Here the token behind `t` counts, too. If there is none, the tokens run out.
    cases ts with
    | nil =>
      rw [List.head?_nil, Option.any_none, Bool.and_false, if_neg Bool.false_ne_true] at h
      cases h
    | cons u ts =>
      have hhead : (u :: ts ++ us).head? = (u :: ts).head? := rfl
      rw [hhead]
      split at h
      · rename_i hk
        cases h
        rw [if_pos hk]
      · rename_i hk
        rw [if_neg hk]
        exact ih h

lemma synchronize_local (inBlock : Bool) : Local (synchronize inBlock) := by
  constructor
  · intro c
    cases hb : boundary inBlock 0 c.rest with
    | none => simp [stateAfter, synchronize, hb]
    | some rest =>
      obtain ⟨us, hus, -⟩ := boundary_some hb
      simpa only [stateAfter, synchronize, hb] using ⟨us, hus.symm⟩
  · intro c us gs hne
    cases hb : boundary inBlock 0 c.rest with
    | none => simp [stateAfter, synchronize, hb] at hne
    | some rest =>
      have hmore : boundary inBlock 0 (c.framed us gs).rest = some (rest ++ us) := boundary_append hb us
      simp only [synchronize, hb, hmore]
      rfl

def recover (inBlock : Bool) (n : ℕ) : Stop → Parser (Option Stmt)
  | .fault f => do record f; setDepth n; synchronize inBlock; return none
  | .internal f => throw (.internal f)

lemma recovering_local (inBlock : Bool) {p : Parser Stmt} (hp : Local p) : Local (recovering inBlock p) := by
  refine hp.of_first (f := fun _ s => pure (some s)) (g := recover inBlock) (fun _ s => .pure (some s)) ?_ ?_ ?_
  · intro n e
    cases e with
    | internal f => exact .throw _
    | fault f =>
      exact (record_local f).bind fun _ => (setDepth_local n).bind fun _ => (synchronize_local inBlock).bind fun _ =>
        .pure none
  · intro c s d hr
    simp only [recovering, hr]
    rfl
  · intro c e d hr
    cases e with
    | internal f => simp only [recovering, hr]; rfl
    | fault f => simp only [recovering, hr]; rfl

def Seals (p : Parser α) : Prop :=
  ∀ c a d, p c = .ok a d → ∀ us gs, p (c.framed us gs) = .ok a (d.framed us gs)

structure Takes (p : Parser α) : Prop where
  lt : ∀ c a d, p c = .ok a d → d.rest.length < c.rest.length
  seals : Seals p

namespace Takes

lemma of_stops {p : Parser α} (h : ∀ c a d, p c ≠ .ok a d) : Takes p :=
  ⟨fun c a d hr => absurd hr (h c a d), fun c a d hr => absurd hr (h c a d)⟩

lemma map {p : Parser α} (hp : Takes p) (f : α → β) : Takes (p >>= fun a => pure (f a)) := by
  constructor
  · intro c b e h
    obtain ⟨a, d, hr, hd⟩ := exists_of_bind_eq_ok h
    cases hd
    exact hp.lt c a e hr
  · intro c b e h us gs
    obtain ⟨a, d, hr, hd⟩ := exists_of_bind_eq_ok h
    cases hd
    exact bind_eq_of_ok (hp.seals c a e hr us gs)

lemma bind {p : Parser α} {f : α → Parser β} (hp : Local p) (hf : ∀ a, Takes (f a)) : Takes (p >>= f) := by
  constructor
  · intro c b e h
    obtain ⟨a, d, hr, hd⟩ := exists_of_bind_eq_ok h
    exact ((hf a).lt d b e hd).trans_le (hp.ok hr).1.length_le
  · intro c b e h us gs
    obtain ⟨a, d, hr, hd⟩ := exists_of_bind_eq_ok h
    -- The second parser took a token, so some were left where the first one ended.
    have hleft : d.rest ≠ [] := List.ne_nil_of_length_pos (Nat.zero_lt_of_lt ((hf a).lt d b e hd))
    rw [bind_eq_of_ok ((hp.ok hr).2 hleft us gs)]
    exact (hf a).seals d b e hd us gs

end Takes

lemma failHere_ne_ok (kind : SyntaxFault.Kind) (c : Cursor) (a : α) (d : Cursor) : failHere kind c ≠ .ok a d := by
  obtain ⟨_ | ⟨t, rest⟩, n, fs⟩ := c <;> exact fun h => by cases h

lemma failHere_takes (kind : SyntaxFault.Kind) : Takes (failHere kind : Parser α) :=
  .of_stops (failHere_ne_ok kind)

lemma ifNext_takes {kinds : Token.Kind → Bool} {f : Token → Parser α} {p : Parser α}
    (hf : ∀ t, kinds t.kind = true → Takes (f t)) (hp : Takes p) : Takes (ifNext kinds f p) := by
  have hlt (c : Cursor) (a : α) (d : Cursor) (hr : ifNext kinds f p c = .ok a d) : d.rest.length < c.rest.length := by
    rcases ifNext_cases kinds f p c with ⟨-, h⟩ | ⟨t, rest, hc, -, hk, h⟩
    · exact hp.lt c a d (h ▸ hr)
    · rw [hc]
      exact Nat.lt_succ_of_lt ((hf t hk).lt _ a d (h ▸ hr))
  refine ⟨hlt, fun c a d hr us gs => ?_⟩
  have hleft : c.rest ≠ [] := List.ne_nil_of_length_pos (Nat.zero_lt_of_lt (hlt c a d hr))
  rcases ifNext_framed hleft kinds f p us gs with ⟨h, hmore⟩ | ⟨t, rest, -, hk, h, hmore⟩
  · rw [hmore]
    exact hp.seals c a d (h ▸ hr) us gs
  · rw [hmore]
    exact (hf t hk).seals _ a d (h ▸ hr) us gs

lemma closing_takes (s : Symbol) (kind : SyntaxFault.Kind) (a : α) : Takes (closing s kind a) := by
  have hcases (c : Cursor) (b : α) (d : Cursor) (hr : closing s kind a c = .ok b d) :
      ∃ t, c.rest = t :: d.rest ∧ ∀ us gs, closing s kind a (c.framed us gs) = .ok b (d.framed us gs) := by
    rcases ifNext_cases (· == .symbol s) (fun _ => pure a) (failHere kind) c with ⟨-, h⟩ | ⟨t, rest, hc, ht, hk, h⟩
    · exact absurd (h.symm.trans hr) (failHere_ne_ok kind c b d)
    · obtain ⟨rfl, rfl⟩ := EStateM.Result.ok.inj (h.symm.trans hr)
      refine ⟨t, hc, fun us gs => ?_⟩
      apply ifNext_of_kind (t := t) _ _ _ rfl (by simpa [ht] using hk)
      simp only [Cursor.framed, hc, List.cons_append]
  constructor
  · intro c b d hr
    obtain ⟨t, hc, -⟩ := hcases c b d hr
    rw [hc]
    exact Nat.lt_succ_self _
  · intro c b d hr
    obtain ⟨-, -, hmore⟩ := hcases c b d hr
    exact hmore

lemma nested_takes {p : Parser α} (hp : Takes p) : Takes (nested p) := by
  apply Takes.bind enter_local
  intro _
  constructor
  · intro c a d h
    cases hr : p c with
    | error e d => simp only [hr, reduceCtorEq] at h
    | ok b e =>
      simp only [hr] at h
      cases h
      exact hp.lt c a e hr
  · intro c a d h us gs
    cases hr : p c with
    | error e d => simp only [hr, reduceCtorEq] at h
    | ok b e =>
      simp only [hr] at h
      cases h
      simp only [hp.seals c a e hr us gs]
      rfl

lemma braced_takes {b : Parser (List Stmt)} {p : Parser Stmt} (hb : Takes b) (hp : Takes p) :
    Takes (ifBrace (do return .block (← nested b)) p) := by
  apply Takes.bind peek_local
  intro t
  split
  · exact (nested_takes hb).map _
  · exact hp

/-- Where the list does not end, `p` takes a token or stops for good. -/
def Progresses (ends : Token.Kind → Bool) (p : Parser (Option Stmt)) : Prop :=
  ∀ c t rest, c.rest = t :: rest → ends t.kind = false →
    Ends p c (fun _ d => d.rest.length < c.rest.length) fun _ _ => True

lemma recovering_progresses {inBlock : Bool} {ends : Token.Kind → Bool} {p : Parser Stmt} (hp : Local p)
    (ht : Takes p) (hends : ∀ k, ends k = false → k ≠ .eof ∧ (inBlock = true → k ≠ .symbol .rightBrace)) :
    Progresses ends (recovering inBlock p) := by
  intro c t rest hr hk
  obtain ⟨hend, hbrace⟩ := hends t.kind hk
  apply ends_recovering
  · exact fun s d hs => ht.lt c s d hs
  · intro f d left hf hb
    obtain ⟨hsuffix, -⟩ := hp.stop hf
    exact hr ▸ boundary_lt_of_suffix (by simpa [Token.isEof] using hend) hbrace (hr ▸ hsuffix) hb
  · exact fun _ _ _ _ => trivial
  · exact fun _ _ _ => trivial

section

variable {ends : Token.Kind → Bool} {p : Parser (Option Stmt)}

lemma declarationsWithin_local (hp : Local p) (done : Array Stmt) (n : ℕ) :
    Local (declarationsWithin ends p done n) := by
  induction n generalizing done with
  | zero => exact .throw _
  | succ n ih =>
    apply peek_local.bind
    intro t
    refine .ite (.pure done) (hp.bind fun o => ?_)
    cases o with
    | some s => exact ih (done.push s)
    | none => exact ih done

lemma declarationsWithin_eq (hp : Progresses ends p) (done : Array Stmt) {c : Cursor} {n : ℕ} (hn : c.rest.length ≤ n)
    (k : ℕ) : declarationsWithin ends p done (n + k) c = declarationsWithin ends p done n c := by
  induction n generalizing done c with
  | zero =>
    have hc : c.rest = [] := List.length_eq_zero_iff.mp (Nat.le_zero.mp hn)
    have hpeek : peek c = .error (.internal .missingEnd) c := by simp only [peek, hc]
    cases k with
    | zero => rfl
    | succ k =>
      rw [Nat.zero_add]
      exact bind_eq_of_error hpeek
  | succ n ih =>
    rw [Nat.add_right_comm, declarationsWithin, declarationsWithin]
    cases hc : c.rest with
    | nil =>
      have hpeek : peek c = .error (.internal .missingEnd) c := by simp only [peek, hc]
      rw [bind_eq_of_error hpeek, bind_eq_of_error hpeek]
    | cons t rest =>
      have hpeek : peek c = .ok t c := by simp only [peek, hc]
      rw [bind_eq_of_ok hpeek, bind_eq_of_ok hpeek]
      split
      · rfl
      · rename_i ht
        have hlt := hp c t rest hc (by simpa using ht)
        cases hr : p c with
        | error e d => rw [bind_eq_of_error hr, bind_eq_of_error hr]
        | ok o d =>
          rw [bind_eq_of_ok hr, bind_eq_of_ok hr]
          have hd : d.rest.length ≤ n := by
            have := hlt.ok hr
            omega
          cases o with
          | some s => exact ih (done.push s) hd
          | none => exact ih done hd

lemma declarations_local (hp : Local p) (hprogress : Progresses ends p) : Local (declarations ends p) := by
  have hwithin (n : ℕ) : Local (Array.toList <$> declarationsWithin ends p #[] n) :=
    (declarationsWithin_local hp #[] n).map _
  constructor
  · exact fun c => (hwithin c.rest.length).suffix c
  · intro c us gs hne
    have hmore : declarations ends p (c.framed us gs) =
        (Array.toList <$> declarationsWithin ends p #[] (c.rest.length + us.length)) (c.framed us gs) := by
      rw [← List.length_append]
      rfl
    have hbound : (Array.toList <$> declarationsWithin ends p #[] (c.rest.length + us.length)) c =
        declarations ends p c := by
      simp only [declarations, Functor.map, EStateM.map, declarationsWithin_eq hprogress #[] le_rfl us.length]
    have hsame := (hwithin (c.rest.length + us.length)).same c us gs
    rw [stateAfter, hbound] at hsame
    exact hmore.trans (hsame hne)

end

lemma body_local {p : Parser Stmt} (hp : Local p) (ht : Takes p) :
    Local (declarations (fun k => k == .symbol .rightBrace || k == .eof) (recovering true p)) :=
  declarations_local (recovering_local true hp) (recovering_progresses hp ht fun _ => ends_block)

lemma block_local {p : Parser Stmt} (hp : Local p) (ht : Takes p) : Local (block p) := by
  rw [block_eq]
  exact advance_local.bind fun _ => (body_local hp ht).bind fun _ => closing_local _ _ _

lemma block_takes {p : Parser Stmt} (hp : Local p) (ht : Takes p) : Takes (block p) := by
  rw [block_eq]
  exact .bind advance_local fun _ => .bind (body_local hp ht) fun _ => closing_takes _ _ _

end Parser

def Mode.closes : Mode → Bool
  | .closed | .statement => true
  | .within | .opened => false

lemma Mode.closes_behind (m : Mode) : m.behind.closes = m.closes := by
  cases m <;> rfl

def Logic.locality : Logic where
  lines := id
  goesBelow _ := True
  judge m _ _ _ _ p _ := p.Local ∧ (m.closes = true → p.Takes)
  block _ p _ := p.Local ∧ p.Takes
  pure _ := ⟨.pure _, fun h => by cases h⟩
  mono h _ := h
  opened h := ⟨h.1, fun h => by cases h⟩
  fail _ := ⟨Parser.failHere_local _, fun _ => Parser.failHere_takes _⟩
  bind _ hp hf := ⟨hp.1.bind fun a => (hf a).1, fun hm => .bind hp.1 fun a => (hf a).2 hm⟩
  take _ hf hp := by
    have hfirst t ht := (hf t ht).choose_spec.2
    simp only [Mode.closes_behind] at hfirst
    exact ⟨Parser.ifNext_local (fun t ht => (hfirst t ht).1) hp.1,
      fun hm => Parser.ifNext_takes (fun t ht => (hfirst t ht).2 hm) (hp.2 hm)⟩
  nested h := ⟨Parser.nested_local (h trivial).1, fun h => by cases h⟩
  enter h := ⟨Parser.enter_local.bind fun _ => (h trivial).1, fun h => by cases h⟩
  backUp h := ⟨Parser.backUp_local h.1, fun h => by cases h⟩
  badTarget h _ := ⟨Parser.badTarget_local (h trivial).1 _, fun h => by cases h⟩
  semicolon _ _ := ⟨Parser.closing_local _ _ _, fun _ => Parser.closing_takes _ _ _⟩
  braced hb hp := ⟨Parser.braced_local (hb trivial).1 hp.1, fun _ => Parser.braced_takes (hb trivial).2 (hp.2 rfl)⟩

namespace Layer

lemma above_locality (k n : ℕ) : Logic.locality.Layers n (above k) (above k) := by
  refine Logic.Layers.above (L := .locality) (fun _ => ?_) (fun k n hdeclaration => ?_) k n
  · exact ⟨Parser.failHere_local _, Parser.failHere_takes _⟩
  · obtain ⟨hlocal, htakes⟩ := hdeclaration
    rw [above_block]
    exact ⟨Parser.block_local hlocal (htakes rfl), Parser.block_takes hlocal (htakes rfl)⟩

lemma above_local (k : ℕ) : (above k).declaration.Local :=
  (above_locality k 0).declaration.1

lemma above_takes (k : ℕ) : (above k).declaration.Takes :=
  (above_locality k 0).declaration.2 rfl

end Layer

namespace Parsed

lemma unit_progresses (n : ℕ) :
    Parser.Progresses (· == .eof) (Parser.recovering false (Layer.above n).declaration) := by
  apply Parser.recovering_progresses (Layer.above_local n) (Layer.above_takes n)
  intro k hk
  exact ⟨by simpa using hk, by simp⟩

lemma unit_local (n : ℕ) :
    (Parser.declarations (· == .eof) (Parser.recovering false (Layer.above n).declaration)).Local :=
  Parser.declarations_local (Parser.recovering_local false (Layer.above_local n)) (unit_progresses n)

lemma ofTokens_append {tokens : List Token} {t : Token} (ht : t ∈ tokens) (he : t.isEof = true) (us : List Token) :
    ofTokens (tokens ++ us) = ofTokens tokens := by
  obtain ⟨parsed, hparsed⟩ := exists_ofTokens ht he
  have hends := ofTokens_ends tokens
  simp only [ofTokens] at hparsed ⊢
  split at hparsed
  · rename_i body d hp
    obtain ⟨-, u, rest, hd, -⟩ := hends.ok hp
    -- The end mark is still there where the parse stops.
    have hmore := ((unit_local maxNesting).ok hp).2 (by simp [hd]) us []
    simp only [Cursor.framed, List.append_nil] at hmore
    rw [hmore]
  · cases hparsed

theorem ofTokens_fails_iff_no_end (tokens : List Token) :
    ((∃ failure, ofTokens tokens = .error failure) ↔ ∀ t ∈ tokens, t.isEof = false) ∧
      (∀ failure, ofTokens tokens = .error failure →
        (∃ fault, failure = .internal fault ∧ fault.chain = "Token stream has no end-of-input token") ∧
        ∀ (δ : Type) (s : Session δ), ∃ s', Session.parse tokens s = .error failure s' ∧ s'.reported = s.reported ∧
          s'.lexicalFaults = s.lexicalFaults ∧ s'.syntaxFaults = s.syntaxFaults) ∧
      ((∃ t ∈ tokens, t.isEof = true) → ∀ us, ofTokens (tokens ++ us) = ofTokens tokens) := by
  refine ⟨⟨?_, ?_⟩, ?_, ?_⟩
  · rintro ⟨failure, h⟩
    exact (ofTokens_error h).2
  · intro hnone
    cases h : ofTokens tokens with
    | error failure => exact ⟨failure, rfl⟩
    | ok parsed =>
      obtain ⟨-, ts, t, rest, rfl, ht, -⟩ := ofTokens_ok h
      have hf := hnone t (by simp)
      rw [ht] at hf
      cases hf
  · intro failure h
    obtain ⟨rfl, -⟩ := ofTokens_error h
    refine ⟨⟨_, rfl, rfl⟩, fun δ s => ⟨s.note .parsing, ?_, rfl, rfl, rfl⟩⟩
    simp only [Session.parse, h]
  · rintro ⟨t, ht, he⟩
    exact ofTokens_append ht he

end Parsed

end Lox
