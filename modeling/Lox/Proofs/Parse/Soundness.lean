import Lox.Proofs.Parse.Steps

namespace Lox

namespace Parser.Sound

variable {α β : Type} {m : Mode} {n : ℕ} {P Q : List Mark → α → Prop} {p : Parser α}

lemma pure {a : α} (h : P [] a) : Sound m n P (Pure.pure a) :=
  fun _ _ _ => ⟨⟨[], h, .still rfl rfl⟩, fun _ => rfl⟩

lemma fail (kind : SyntaxFault.Kind) : Sound m n P (failHere kind) := by
  rintro hn c rfl
  exact (Reached.start hn).failHere kind

lemma mono (hp : Sound m n P p) (h : ∀ ms a, P ms a → Q ms a) : Sound m n Q p := by
  intro hn c hc
  apply (hp hn c hc).mono _ fun _ _ => id
  rintro a d ⟨⟨ms, ha, hy⟩, hd⟩
  exact ⟨⟨ms, h ms a ha, hy⟩, hd⟩

lemma inMode {m' : Mode} (hp : Sound m' n P p) (h : m ≠ .opened → m' ≠ .opened) : Sound m n P p :=
  fun hn c hc => (hp hn c hc).mono (fun _ _ hg => ⟨hg.built, fun hm => hg.depth_eq (h hm)⟩) fun _ _ => id

lemma bind {R : List Mark → β → Prop} {f : α → Parser β} (hp : Sound .within n P p)
    (hf : ∀ a, Sound m n (fun ns b => ∀ ms, P ms a → R (ms ++ ns) b) (f a)) : Sound m n R (p >>= f) := by
  rintro hn c rfl
  rw [ends_bind]
  apply (hp hn c rfl).mono _ fun _ _ => id
  rintro a d ⟨⟨ms, ha, hy⟩, hd⟩
  have hdepth := hd (by decide)
  have hreach : Reached c ms d := ⟨hy, hdepth.ge, hdepth ▸ hn⟩
  exact hreach.run hdepth (hf a hn d hdepth) fun ns b hb => hb ms ha

lemma take {kinds : Token.Kind → Bool} {f : Token → Parser α}
    (hf : ∀ t, kinds t.kind = true → ∃ mark : Mark, mark.Accepts t ∧
      Sound m.behind n (fun ms a => P (mark :: ms) a) (f t))
    (hp : Sound m n P p) : Sound m n P (ifNext kinds f p) := by
  rintro hn c rfl
  rcases ifNext_cases kinds f p c with ⟨-, h⟩ | ⟨t, rest, hc, ht, hk, h⟩
  · simpa only [Ends, h] using hp hn c rfl
  · obtain ⟨mark, hmark, hf⟩ := hf t hk
    have hreach : Reached c [mark] { c with rest } := (Reached.start hn).next (.token hc rfl ht hmark) rfl
    have hrun := hreach.run (P := P) rfl (hf.inMode (m := m) Mode.behind_ne_opened hn _ rfl) fun _ _ => id
    simpa only [Ends, h] using hrun

lemma closing {s : Symbol} (kind : SyntaxFault.Kind) {a : α} (h : P [.any (.symbol s)] a) :
    Sound m n P (closing s kind a) :=
  take (fun _ ht => ⟨.any (.symbol s), eq_of_beq ht, pure h⟩) (fail kind)

lemma nested (hp : Sound .within (n + 1) P p) :
    Sound .within n (fun ms a => n < maxNesting ∧ P ms a) (nested p) := by
  rintro hn c rfl
  exact Gives.nested hn fun hlt d hd => hp hlt d (by rw [hd])

lemma enter (hp : Sound .opened (n + 1) (fun ms a => n < maxNesting → P ms a) p) :
    Sound .opened n P (do enter; p) := by
  rintro hn c rfl
  rw [ends_bind]
  apply (Reached.start hn).enter
  intro hlt hreach
  apply (hp hlt _ rfl).mono _ fun _ _ => hreach.stopped
  rintro a d ⟨⟨ms, ha, hy⟩, -⟩
  exact ⟨⟨ms, ha hlt, hreach.yields.trans hy⟩, fun h => absurd rfl h⟩

lemma backUp (hp : Sound .opened n P p) : Sound .within n P (backUp p) := by
  rintro hn c rfl
  rw [Parser.backUp, ends_bind, ends_depth, ends_bind]
  apply (hp hn c rfl).mono _ fun _ _ => id
  rintro a d ⟨⟨ms, ha, hy⟩, -⟩
  rw [ends_bind, ends_setDepth, ends_pure]
  exact ⟨⟨ms, ha, hy.withDepth _⟩, fun _ => rfl⟩

lemma badTarget {P Q : List Mark → Expr → Prop} {deeper : Parser Expr} {left : Expr}
    (hd : Sound .within (n + 1) P deeper) (h : Q [] left) : Sound .within n Q (badTarget deeper left) := by
  rintro hn c rfl
  rcases ifNext_cases (· == .symbol .equal) _ _ c with ⟨-, h'⟩ | ⟨equals, rest, hc, ht, hk, h'⟩
  · exact ends_of_ok h' ⟨⟨[], h, .still rfl rfl⟩, fun _ => rfl⟩
  · have hreach : Reached c [.any (.symbol .equal)] { c with rest } :=
      (Reached.start hn).next (.token hc rfl ht (eq_of_beq hk)) rfl
    rw [Parser.badTarget, Ends, h', ← Ends, ends_bind]
    apply (nested hd hn { c with rest } rfl).mono _ fun _ _ => hreach.stopped
    rintro value d ⟨⟨ms, -, hy⟩, hdepth⟩
    exact ⟨⟨[], h, (hreach.yields.trans hy).lose (by simp) _⟩, hdepth⟩

end Parser.Sound

def Stmt.BlockSpelled (n : ℕ) (ms : List Mark) (body : List Stmt) : Prop :=
  (∀ s ∈ body, s.Derives n) ∧ .any (.symbol .leftBrace) :: Stmt.spellingEach body ++ [.any (.symbol .rightBrace)] = ms

def Parser.BlockSound (n : ℕ) (p : Parser (List Stmt)) : Prop :=
  n ≤ maxNesting → ∀ c t rest, c.depth = n → c.rest = t :: rest → t.kind = .symbol .leftBrace →
    Ends p c (Gives .within (Stmt.BlockSpelled n) c) (Stopped c)

lemma Parser.Sound.braced {n : ℕ} {b : Parser (List Stmt)} {p : Parser Stmt} (hb : BlockSound (n + 1) b)
    (hp : Sound .closed n (Stmt.Spelled n) p) :
    Sound .statement n (Stmt.Spelled n) (ifBrace (do return .block (← Parser.nested b)) p) := by
  rintro hn c rfl
  have hstart := Reached.start hn
  rw [ifBrace, ends_bind]
  apply hstart.peek
  intro t rest hr
  split
  · rename_i ht
    rw [ends_bind]
    apply (Gives.nested hn fun hlt d hd => hb hlt d t rest (by rw [hd]) (by rw [hd, hr]) (eq_of_beq ht)).mono _
      fun _ _ => id
    rintro body d ⟨⟨_, ⟨hlt, hd, rfl⟩, hy⟩, hdepth⟩
    exact ⟨⟨_, ⟨.block hlt hd, rfl⟩, hy⟩, fun _ => hdepth (by decide)⟩
  · exact hp.inMode (fun _ => by decide) hn c rfl

def Logic.sound : Logic where
  lines := id
  goesBelow _ := True
  judge m n _ _ P p _ := p.Sound m n P
  block n p _ := p.BlockSound n
  pure := .pure
  mono := .mono
  opened h := h.inMode fun hm => absurd rfl hm
  fail _ := .fail _
  bind _ := .bind
  take _ := .take
  nested h := .nested (h trivial)
  enter h := .enter (h trivial)
  backUp := .backUp
  badTarget h := .badTarget (h trivial)
  semicolon _ := .closing _
  braced h := .braced (h trivial)

end Lox
