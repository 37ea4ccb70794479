import Lox.Parse
import Lox.Proofs.Parse.Recovery

namespace Lox

section

variable (f : ℕ → ℕ)

def SyntaxFault.mapLine (fault : SyntaxFault) : SyntaxFault :=
  { fault with line := f fault.line }

def Stop.mapLine : Stop → Stop
  | .fault e => .fault (e.mapLine f)
  | .internal e => .internal (e.mapLine f)

def Cursor.mapLine (c : Cursor) : Cursor where
  rest := c.rest.map (Token.mapLine f)
  depth := c.depth
  faults := c.faults.map (SyntaxFault.mapLine f)

def Parsed.mapLine (p : Parsed) : Parsed where
  statements := Stmt.mapLineEach f p.statements
  faults := p.faults.map (SyntaxFault.mapLine f)

end

def Cursor.Deep (n : ℕ) (c : Cursor) : Prop :=
  n ≤ c.depth ∧ c.depth ≤ max n maxNesting

namespace Cursor.Deep

variable {n : ℕ} {c : Cursor}

lemma of_eq (h : c.depth = n) : c.Deep n :=
  ⟨h.ge, h.le.trans (le_max_left _ _)⟩

lemma le (h : c.Deep n) (hn : n ≤ maxNesting) : c.depth ≤ maxNesting :=
  h.2.trans_eq (Nat.max_eq_right hn)

lemma of_succ (hn : n < maxNesting) (h : c.Deep (n + 1)) : c.Deep n :=
  ⟨Nat.le_of_succ_le h.1, (h.le hn).trans (le_max_right _ _)⟩

lemma up (hn : n < maxNesting) (h : c.Deep (n + 1)) : Cursor.Deep n { c with depth := c.depth - 1 } := by
  have hle := h.le hn
  exact ⟨Nat.le_sub_one_of_lt h.1, (Nat.sub_le _ _).trans (hle.trans (le_max_right _ _))⟩

end Cursor.Deep

/-- A chain that has begun does not come back by itself: it ends as deep as it has operators. -/
def Mode.Returns (m : Mode) (n : ℕ) (c : Cursor) : Prop :=
  match m with
  | .opened => c.Deep n
  | _ => c.depth = n

lemma Mode.returns_of_eq (m : Mode) {n : ℕ} {c : Cursor} (h : c.depth = n) : m.Returns n c := by
  cases m with
  | opened => exact .of_eq h
  | _ => exact h

lemma Mode.Returns.deep {m : Mode} {n : ℕ} {c : Cursor} (h : m.Returns n c) : c.Deep n := by
  cases m with
  | opened => exact h
  | _ => exact .of_eq h

def Stop.Ordinary (x : Stop) : Prop :=
  ∀ f, x = .internal f → f = .missingEnd

lemma Stop.ordinary_fault (f : SyntaxFault) : (Stop.fault f).Ordinary :=
  fun _ h => by cases h

lemma Stop.ordinary_missingEnd : (Stop.internal .missingEnd).Ordinary := by
  rintro _ ⟨⟩
  rfl

variable {f : ℕ → ℕ} {α β : Type}

namespace Parser

def moved (f : ℕ → ℕ) (g : α → α) : EStateM.Result Stop Cursor α → EStateM.Result Stop Cursor α
  | .ok a c => .ok (g a) (c.mapLine f)
  | .error x c => .error (x.mapLine f) (c.mapLine f)

/-- From `c` on, within a parser that began at depth `n`, `q` does on the moved tokens what `p` does. -/
structure Alike (f : ℕ → ℕ) (n : ℕ) (ok : Cursor → Prop) (g : α → α) (p q : Parser α) (c : Cursor) : Prop where
  eq : q (c.mapLine f) = moved f g (p c)
  ends : Ends p c (fun _ d => ok d) (fun x d => d.Deep n ∧ x.Ordinary)

namespace Alike

variable {n : ℕ} {ok mid : Cursor → Prop} {g : α → α} {g' : β → β} {p q p' q' : Parser α} {c d : Cursor}

lemma of_ok {a : α} (hp : p c = .ok a d) (hq : q (c.mapLine f) = .ok (g a) (d.mapLine f)) (hd : ok d) :
    Alike f n ok g p q c :=
  ⟨by rw [hq, hp, moved], ends_of_ok hp hd⟩

lemma of_error {x : Stop} (hp : p c = .error x d) (hq : q (c.mapLine f) = .error (x.mapLine f) (d.mapLine f))
    (hd : d.Deep n) (hx : x.Ordinary) : Alike f n ok g p q c :=
  ⟨by rw [hq, hp, moved], ends_of_error hp ⟨hd, hx⟩⟩

lemma of_eq (h : Alike f n ok g p q d) (hp : p' c = p d) (hq : q' (c.mapLine f) = q (d.mapLine f)) :
    Alike f n ok g p' q' c :=
  ⟨by rw [hq, hp, h.eq], by simpa only [Ends, hp] using h.ends⟩

lemma bind {k k' : α → Parser β} (h : Alike f n mid g p q c)
    (hk : ∀ a d, p c = .ok a d → mid d → Alike f n ok g' (k a) (k' (g a)) d) :
    Alike f n ok g' (p >>= k) (q >>= k') c := by
  have heq := h.eq
  cases hp : p c with
  | ok a d =>
    rw [hp, moved] at heq
    exact (hk a d hp (h.ends.ok hp)).of_eq (bind_eq_of_ok hp) (bind_eq_of_ok heq)
  | error x d =>
    rw [hp, moved] at heq
    obtain ⟨hd, hx⟩ := h.ends.stop hp
    exact of_error (bind_eq_of_error hp) (bind_eq_of_error heq) hd hx

lemma of_succ (hn : n < maxNesting) (h : Alike f (n + 1) ok g p q c) : Alike f n ok g p q c :=
  ⟨h.eq, h.ends.mono (fun _ _ => id) fun _ _ hs => ⟨hs.1.of_succ hn, hs.2⟩⟩

lemma mono (h : Alike f n mid g p q c) (hok : ∀ d, mid d → ok d) : Alike f n ok g p q c :=
  ⟨h.eq, h.ends.mono (fun _ => hok) fun _ _ => id⟩

end Alike

def MovedAt (f : ℕ → ℕ) (m : Mode) (n : ℕ) (g : α → α) (p q : Parser α) : Prop :=
  ∀ c, c.depth = n → Alike f n (m.Returns n) g p q c

lemma failHere_alike {n : ℕ} {ok : Cursor → Prop} {g : α → α} (kind : SyntaxFault.Kind) {c : Cursor}
    (hc : c.depth = n) : Alike f n ok g (failHere kind) (failHere kind) c := by
  obtain ⟨_ | ⟨t, rest⟩, k, fs⟩ := c
  · exact .of_error rfl rfl (.of_eq hc) Stop.ordinary_missingEnd
  · exact .of_error rfl rfl (.of_eq hc) (Stop.ordinary_fault _)

lemma enter_alike (c : Cursor) :
    Alike f c.depth (fun d => c.depth < maxNesting ∧ d.depth = c.depth + 1) id enter enter c := by
  have hdepth : Alike f c.depth (· = c) id depth depth c := .of_ok rfl rfl rfl
  apply hdepth.bind
  rintro n d hn rfl
  cases hn
  dsimp only [id]
  split
  · exact failHere_alike _ rfl
  · exact .of_ok rfl rfl ⟨by omega, rfl⟩

namespace MovedAt

variable {m : Mode} {n : ℕ} {g : α → α} {g' : β → β} {p q : Parser α}

lemma pure (a : α) : MovedAt f m n g (Pure.pure a) (Pure.pure (g a)) :=
  fun _ hc => .of_ok rfl rfl (m.returns_of_eq hc)

lemma fail (kind : SyntaxFault.Kind) : MovedAt f m n g (failHere kind) (failHere kind) :=
  fun _ hc => failHere_alike kind hc

lemma bind {k k' : α → Parser β} (h : MovedAt f .within n g p q) (hk : ∀ a, MovedAt f m n g' (k a) (k' (g a))) :
    MovedAt f m n g' (p >>= k) (q >>= k') :=
  fun c hc => (h c hc).bind fun a d _ hd => hk a d hd

lemma ite {b : Prop} [Decidable b] {p' q' : Parser α} (h : MovedAt f m n g p q) (h' : MovedAt f m n g p' q') :
    MovedAt f m n g (if b then p else p') (if b then q else q') := by
  split
  · exact h
  · exact h'

lemma peek : MovedAt f m n (Token.mapLine f) peek peek := by
  rintro ⟨_ | ⟨t, rest⟩, k, fs⟩ hc
  · exact .of_error rfl rfl (.of_eq hc) Stop.ordinary_missingEnd
  · exact .of_ok rfl rfl (m.returns_of_eq hc)

lemma inMode {m' : Mode} (h : MovedAt f m' n g p q) (hm : m = .opened ∨ m' ≠ .opened) : MovedAt f m n g p q := by
  refine fun c hc => (h c hc).mono fun d hd => ?_
  rcases hm with rfl | hm
  · exact hd.deep
  · refine m.returns_of_eq ?_
    cases m' with
    | opened => exact absurd rfl hm
    | _ => exact hd

lemma take {kinds : Token.Kind → Bool} {k k' : Token → Parser α}
    (hk : ∀ t, kinds t.kind = true → MovedAt f m.behind n g (k t) (k' (t.mapLine f))) (h : MovedAt f m n g p q) :
    MovedAt f m n g (ifNext kinds k p) (ifNext kinds k' q) := by
  intro c hc
  rcases ifNext_cases kinds k p c with ⟨hnot, hp⟩ | ⟨t, rest, hr, ht, hkind, hp⟩
  · refine (h c hc).of_eq hp (ifNext_of_not k' q fun u hu => ?_)
    obtain ⟨t, ht, rfl⟩ : ∃ t ∈ c.rest.head?, t.mapLine f = u := by simpa [Cursor.mapLine] using hu
    exact hnot t ht
  · have hmode : m = .opened ∨ m.behind ≠ .opened := or_iff_not_imp_left.mpr Mode.behind_ne_opened
    have htaken : (!t.isEof && kinds t.kind) = true := by simp [ht, hkind]
    refine ((hk t hkind).inMode hmode { c with rest } hc).of_eq hp (ifNext_of_kind k' q ?_ rfl htaken)
    simp [Cursor.mapLine, hr]

lemma closing (s : Symbol) (kind : SyntaxFault.Kind) (a : α) :
    MovedAt f m n g (closing s kind a) (closing s kind (g a)) :=
  take (fun _ _ => pure a) (fail kind)

lemma nested (h : n < maxNesting → MovedAt f .within (n + 1) g p q) :
    MovedAt f .within n g (nested p) (nested q) := by
  rintro c rfl
  apply (enter_alike c).bind
  rintro _ d - ⟨hn, hd⟩
  have hin := h hn d hd
  have heq := hin.eq
  cases hp : p d with
  | ok a e =>
    rw [hp, moved] at heq
    have he : e.depth = c.depth + 1 := hin.ends.ok hp
    exact .of_ok (a := a) (d := { e with depth := e.depth - 1 }) (by simp only [hp]) (by simp only [heq]; rfl)
      (Nat.sub_eq_of_eq_add he)
  | error x e =>
    rw [hp, moved] at heq
    obtain ⟨he, hx⟩ := hin.ends.stop hp
    exact .of_error (d := { e with depth := e.depth - 1 }) (by simp only [hp]) (by simp only [heq]; rfl)
      (he.up hn) hx

lemma enter (h : n < maxNesting → MovedAt f .opened (n + 1) g p q) :
    MovedAt f .opened n g (do enter; p) (do enter; q) := by
  rintro c rfl
  apply (enter_alike c).bind
  rintro _ d - ⟨hn, hd⟩
  -- The level is not left again, so the chain may end at any depth from here on.
  exact ((h hn d hd).of_succ hn).mono fun _ => Cursor.Deep.of_succ hn

lemma backUp (h : MovedAt f .opened n g p q) : MovedAt f .within n g (backUp p) (backUp q) := by
  intro c hc
  have hdepth : Alike f n (· = c) id depth depth c := .of_ok rfl rfl rfl
  apply hdepth.bind
  rintro base d hbase rfl
  cases hbase
  exact (h d hc).bind fun a e _ _ => .of_ok rfl rfl hc

lemma badTarget {deeper deeper' : Parser Expr}
    (h : n < maxNesting → MovedAt f .within (n + 1) (Expr.mapLine f) deeper deeper') (left : Expr) :
    MovedAt f .within n (Expr.mapLine f) (badTarget deeper left) (badTarget deeper' (left.mapLine f)) :=
  take (fun _ _ => (nested h).bind fun _ _ hc => .of_ok rfl rfl hc) (pure left)

lemma braced {b b' : Parser (List Stmt)} {p q : Parser Stmt}
    (hb : n < maxNesting → MovedAt f .within (n + 1) (Stmt.mapLineEach f) b b')
    (h : MovedAt f .closed n (Stmt.mapLine f) p q) :
    MovedAt f .statement n (Stmt.mapLine f) (ifBrace (do return .block (← Parser.nested b)) p)
      (ifBrace (do return .block (← Parser.nested b')) q) := by
  have hblock (body : List Stmt) : Pure.pure (.block (Stmt.mapLineEach f body)) =
      (Pure.pure ((Stmt.block body).mapLine f) : Parser Stmt) := by rw [Stmt.mapLine]
  have hbraced : MovedAt f .statement n (Stmt.mapLine f) (do return .block (← Parser.nested b))
      (do return .block (← Parser.nested b')) :=
    (nested hb).bind fun body => hblock body ▸ pure (Stmt.block body)
  exact MovedAt.peek.bind fun _ => .ite hbraced (h.inMode (.inr (by decide)))

end MovedAt

end Parser

open Lox.Parser in
def Logic.moving (f : ℕ → ℕ) : Logic where
  lines := f
  goesBelow n := n < maxNesting
  judge m n _ g _ p q := MovedAt f m n g p q
  block n p q := MovedAt f .within n (Stmt.mapLineEach f) p q
  pure _ := .pure _
  mono h _ := h
  opened h := h.inMode (.inl rfl)
  fail _ := .fail _
  bind _ := .bind
  take _ hk := .take fun t ht => (hk t ht).choose_spec.2
  nested := .nested
  enter := .enter
  backUp := .backUp
  badTarget h _ := .badTarget h _
  semicolon _ _ := .closing _ _ _
  braced := .braced

namespace Parser

lemma boundary_mapLine (inBlock : Bool) (braces : ℕ) (ts : List Token) :
    boundary inBlock braces (ts.map (Token.mapLine f)) =
      (boundary inBlock braces ts).map (List.map (Token.mapLine f)) := by
  induction ts generalizing braces with
  | nil => rfl
  | cons t ts ih =>
    have hhead : (ts.map (Token.mapLine f)).head?.any (·.kind.startsStatement) =
        ts.head?.any (·.kind.startsStatement) := by cases ts <;> rfl
    rw [List.map_cons, boundary, boundary, hhead, ih]
    simp only [apply_ite (Option.map (List.map (Token.mapLine f)))]
    rfl

lemma synchronize_mapLine (inBlock : Bool) (c : Cursor) :
    synchronize inBlock (c.mapLine f) = moved f id (synchronize inBlock c) := by
  have hb := boundary_mapLine (f := f) inBlock 0 c.rest
  cases hr : boundary inBlock 0 c.rest with
  | some rest =>
    rw [hr] at hb
    simp only [synchronize, Cursor.mapLine, hb, hr]
    rfl
  | none =>
    rw [hr] at hb
    simp only [synchronize, Cursor.mapLine, hb, hr]
    rfl

lemma skip_mapLine (inBlock : Bool) (c : Cursor) :
    (do synchronize inBlock; return none : Parser (Option Stmt)) (c.mapLine f) =
      moved f (Option.map (Stmt.mapLine f)) ((do synchronize inBlock; return none : Parser (Option Stmt)) c) := by
  have hskip := synchronize_mapLine (f := f) inBlock c
  cases hs : synchronize inBlock c with
  | ok _ d =>
    rw [hs] at hskip
    rw [bind_eq_of_ok hskip, bind_eq_of_ok hs]
    rfl
  | error x d =>
    rw [hs] at hskip
    rw [bind_eq_of_error hskip, bind_eq_of_error hs]
    rfl

lemma ends_recovering_depth (inBlock : Bool) {p : Parser Stmt} {c : Cursor}
    (h : Ends p c (fun _ d => d.depth = c.depth) (fun x d => d.Deep c.depth ∧ x.Ordinary)) :
    Ends (recovering inBlock p) c (fun _ d => d.depth = c.depth)
      (fun x d => d.Deep c.depth ∧ x = .internal .missingEnd) := by
  apply ends_recovering
  · exact fun s d hs => h.ok hs
  · exact fun _ _ _ _ _ => rfl
  · exact fun _ _ _ _ => ⟨.of_eq rfl, rfl⟩
  · intro f d hf
    obtain ⟨hd, hx⟩ := h.stop hf
    exact ⟨hd, by rw [hx f rfl]⟩

namespace MovedAt

variable {n : ℕ}

lemma recovering (inBlock : Bool) {p q : Parser Stmt} (h : MovedAt f .statement n (Stmt.mapLine f) p q) :
    MovedAt f .within n (Option.map (Stmt.mapLine f)) (recovering inBlock p) (recovering inBlock q) := by
  rintro c rfl
  have heq := (h c rfl).eq
  refine ⟨?_, (ends_recovering_depth inBlock (h c rfl).ends).mono (fun _ _ => id) ?_⟩
  · cases hp : p c with
    | ok s d =>
      rw [hp, moved] at heq
      simp only [Parser.recovering, heq, hp]
      rfl
    | error x d =>
      rw [hp, moved] at heq
      cases x with
      | internal fault =>
        simp only [Parser.recovering, heq, hp]
        rfl
      | fault fault =>
        simp only [Parser.recovering, heq, hp]
        exact skip_mapLine inBlock ⟨d.rest, c.depth, fault :: d.faults⟩
  · rintro x d ⟨hd, rfl⟩
    exact ⟨hd, Stop.ordinary_missingEnd⟩

lemma declarationsWithin (ends : Token.Kind → Bool) {p q : Parser (Option Stmt)}
    (h : MovedAt f .within n (Option.map (Stmt.mapLine f)) p q) (done : Array Stmt) (k : ℕ) :
    MovedAt f .within n (Array.map (Stmt.mapLine f)) (declarationsWithin ends p done k)
      (declarationsWithin ends q (done.map (Stmt.mapLine f)) k) := by
  induction k generalizing done with
  | zero => exact fun c hc => .of_error rfl rfl (.of_eq hc) Stop.ordinary_missingEnd
  | succ k ih =>
    refine MovedAt.peek.bind fun t => .ite (pure done) (h.bind fun o => ?_)
    cases o with
    | some s =>
      have hpush := ih (done.push s)
      rwa [Array.map_push] at hpush
    | none => exact ih done

lemma declarations (ends : Token.Kind → Bool) {p q : Parser (Option Stmt)}
    (h : MovedAt f .within n (Option.map (Stmt.mapLine f)) p q) :
    MovedAt f .within n (Stmt.mapLineEach f) (declarations ends p) (declarations ends q) := by
  intro c hc
  have hwithin : MovedAt f .within n (Stmt.mapLineEach f)
      (do let body ← Parser.declarationsWithin ends p #[] c.rest.length; return body.toList)
      (do let body ← Parser.declarationsWithin ends q #[] c.rest.length; return body.toList) := by
    have hempty := declarationsWithin ends h #[] c.rest.length
    rw [Array.map_empty] at hempty
    refine hempty.bind fun body => ?_
    rw [Array.toList_map, ← Stmt.mapLineEach_eq_map]
    exact pure body.toList
  refine (hwithin c hc).of_eq ?_ ?_
  · rw [Parser.declarations, map_eq_pure_bind]
  · rw [Parser.declarations, map_eq_pure_bind, Cursor.mapLine, List.length_map]

lemma block {p q : Parser Stmt} (h : MovedAt f .statement n (Stmt.mapLine f) p q) :
    MovedAt f .within n (Stmt.mapLineEach f) (block p) (block q) := by
  have hadvance : MovedAt f .within n (Token.mapLine f) advance advance := by
    rintro ⟨_ | ⟨t, rest⟩, k, fs⟩ hc
    · exact .of_error rfl rfl (.of_eq hc) Stop.ordinary_missingEnd
    by_cases ht : t.isEof = true
    · exact .of_ok (congrArg (EStateM.Result.ok t) (if_pos ht)) (congrArg (EStateM.Result.ok _) (if_pos ht)) hc
    · exact .of_ok (congrArg (EStateM.Result.ok t) (if_neg ht)) (congrArg (EStateM.Result.ok _) (if_neg ht)) hc
  rw [block_eq, block_eq]
  exact hadvance.bind fun _ => (declarations _ (recovering true h)).bind fun body => closing _ _ body

end MovedAt

end Parser

namespace Layer

lemma climb_moving {n : ℕ} {l l' : Layer} (h : n < maxNesting → (Logic.moving f).Layers (n + 1) l l') :
    (Logic.moving f).Layers n (climb l) (climb l') :=
  .climb h Parser.MovedAt.block

lemma above_moving (k n : ℕ) : (Logic.moving f).Layers n (above k) (above k) := by
  refine Logic.Layers.above (L := .moving f) (fun _ => .fail _) (fun k n hdeclaration => ?_) k n
  rw [above_block]
  exact .block hdeclaration

end Layer

lemma Parsed.ofTokens_mapLine {tokens : List Token} {parsed : Parsed} (h : ofTokens tokens = .ok parsed) :
    ofTokens (tokens.map (Token.mapLine f)) = .ok (parsed.mapLine f) := by
  have hmoved := (Parser.MovedAt.declarations (· == .eof)
    (.recovering false (Layer.above_moving (f := f) maxNesting 0).declaration) ⟨tokens, 0, []⟩ rfl).eq
  simp only [ofTokens] at h ⊢
  split at h
  · rename_i body d hp
    cases h
    rw [hp] at hmoved
    rw [show (⟨tokens.map (Token.mapLine f), 0, []⟩ : Cursor) = Cursor.mapLine f ⟨tokens, 0, []⟩ from rfl, hmoved]
    simp [Parser.moved, Parsed.mapLine, Cursor.mapLine]
  · cases h

end Lox
