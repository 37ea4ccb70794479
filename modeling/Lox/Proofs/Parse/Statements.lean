import Lox.Proofs.Parse.Recovery
import Lox.Proofs.Parse.Soundness

namespace Lox

def Stmt.EachSpelled (n : ℕ) (ms : List Mark) (body : List Stmt) : Prop :=
  (∀ s ∈ body, s.Derives n) ∧ Stmt.spellingEach body = ms

lemma Stmt.spelling_ne_nil (s : Stmt) : s.spelling ≠ [] := by
  cases s <;> simp [Stmt.spelling]

namespace Parser

/-- A stop of a list of declarations is never a syntax fault: recovery has caught those. -/
def Lost (c : Cursor) (e : Stop) (d : Cursor) : Prop :=
  Stopped c e d ∧ e = .internal .missingEnd

lemma recovering_sound (inBlock : Bool) {p : Parser Stmt} {c : Cursor} {t : Token} {rest : List Token}
    (hd : c.depth ≤ maxNesting) (hp : p.Sound .statement c.depth (Stmt.Spelled c.depth))
    (hr : c.rest = t :: rest) (ht : t.isEof = false) (hb : inBlock = true → t.kind ≠ .symbol .rightBrace) :
    Ends (recovering inBlock p) c (fun o d => (∀ s ∈ o, s.Derives c.depth) ∧
      c.Yields (Stmt.spellingEach o.toList) d ∧ d.depth = c.depth ∧ d.rest.length < c.rest.length) (Lost c) := by
  have h := hp hd c rfl
  apply ends_recovering
  · intro s d hs
    obtain ⟨⟨_, ⟨hderives, rfl⟩, hy⟩, hdepth⟩ := h.ok hs
    refine ⟨by simpa using hderives, ?_, hdepth (by decide), hy.length_lt s.spelling_ne_nil⟩
    simpa [Stmt.spellingEach] using hy
  · intro f d rest' hf hrest
    obtain ⟨ts, fs, hread⟩ := (h.stop hf).reads
    obtain ⟨us, hu, hnu⟩ := boundary_some hrest
    have hlt : rest'.length < c.rest.length :=
      hr ▸ boundary_lt_of_suffix ht hb (hr ▸ ⟨ts, hread.rest.symm⟩) hrest
    have hread' : c.Reads (ts ++ us) (f :: fs) ⟨rest', c.depth, f :: d.faults⟩ :=
      ⟨by rw [hread.rest, hu, List.append_assoc], by simp [hread.faults],
        fun s hs => (List.mem_append.mp hs).elim (hread.noEnd s) (hnu s)⟩
    refine ⟨by simp, ⟨ts ++ us, f :: fs, hread', .lost ?_ (List.cons_ne_nil f fs)⟩, rfl, hlt⟩
    intro he
    have hc := hread'.rest
    rw [he, List.nil_append] at hc
    exact absurd (congrArg List.length hc) (by dsimp only; omega)
  · intro f d hf hnone
    obtain ⟨ts, fs, hread⟩ := (h.stop hf).reads
    have hn := boundary_none hnone
    refine ⟨⟨⟨ts ++ d.rest, f :: fs, ?_, ?_, ?_⟩, le_rfl, hd, ?_⟩, rfl⟩
    · rw [hread.rest, List.append_nil]
    · simp [hread.faults]
    · exact fun s hs => (List.mem_append.mp hs).elim (hread.noEnd s) (hn s)
    · rintro _ ⟨⟩
      exact ⟨rfl, hread.noEnd_rest hn⟩
  · intro f d hf
    have hs := h.stop hf
    exact ⟨hs, by rw [(hs.missing f rfl).1]⟩

lemma declarations_sound {inBlock : Bool} {ends : Token.Kind → Bool} {p : Parser Stmt} {c : Cursor}
    (hd : c.depth ≤ maxNesting) (hp : p.Sound .statement c.depth (Stmt.Spelled c.depth))
    (hends : ∀ k, ends k = false → k ≠ .eof ∧ (inBlock = true → k ≠ .symbol .rightBrace)) :
    Ends (declarations ends (recovering inBlock p)) c
      (fun body d => Gives .within (Stmt.EachSpelled c.depth) c body d ∧
        ∃ t rest, d.rest = t :: rest ∧ ends t.kind = true) (Lost c) := by
  have hreach {done : List Stmt} {d : Cursor} (hy : c.Yields (Stmt.spellingEach done) d) (hdepth : d.depth = c.depth) :
      Reached c (Stmt.spellingEach done) d := ⟨hy, hdepth.ge, hdepth ▸ hd⟩
  apply ends_declarations (Gives .within (Stmt.EachSpelled c.depth) c)
  · exact ⟨⟨[], ⟨by simp, rfl⟩, .still rfl rfl⟩, fun _ => rfl⟩
  · rintro done d t rest ⟨⟨_, ⟨hdone, rfl⟩, hy⟩, hdepth⟩ hr ht
    have hdepth := hdepth (by decide)
    obtain ⟨he, hb⟩ := hends t.kind ht
    apply (recovering_sound inBlock (hdepth ▸ hd) (hdepth ▸ hp) hr (by simpa [Token.isEof] using he) hb).mono
    · rintro o e ⟨ho, hye, hde, hlt⟩
      refine ⟨⟨⟨_, ⟨?_, Stmt.spellingEach_append done o.toList⟩, hy.trans hye⟩, fun _ => hde.trans hdepth⟩, hlt⟩
      intro s hs
      rcases List.mem_append.mp hs with hs | hs
      · exact hdone s hs
      · exact hdepth ▸ ho s (by simpa using hs)
    · exact fun _ _ hl => ⟨(hreach hy hdepth).stopped hl.1, hl.2⟩
  · rintro done d ⟨⟨_, ⟨-, rfl⟩, hy⟩, hdepth⟩ hr
    refine ⟨(hreach hy (hdepth (by decide))).stopped_here ?_, rfl⟩
    rintro _ ⟨⟩
    exact ⟨rfl, hr⟩

lemma ends_block {k : Token.Kind} (hk : (k == .symbol .rightBrace || k == .eof) = false) :
    k ≠ .eof ∧ (true = true → k ≠ .symbol .rightBrace) := by
  rw [Bool.or_eq_false_iff, beq_eq_false_iff_ne, beq_eq_false_iff_ne] at hk
  exact ⟨hk.2, fun _ => hk.1⟩

lemma BlockSound.block {n : ℕ} {p : Parser Stmt} (hp : p.Sound .statement n (Stmt.Spelled n)) :
    BlockSound n (Parser.block p) := by
  rintro hn c t rest rfl hr ht
  rw [block_eq, ends_bind]
  apply (Reached.start hn).advance hr (by simp [Token.isEof, ht]) (m := .any (.symbol .leftBrace)) ht
  intro c₁ h₁ hd₁
  rw [ends_bind]
  apply (declarations_sound h₁.depth_bound (hd₁ ▸ hp) fun _ => ends_block).mono
  · rintro body c₂ ⟨⟨⟨_, ⟨hbody, rfl⟩, hy⟩, hd₂⟩, -⟩
    have hd₂ := (hd₂ (by decide)).trans hd₁
    have h₂ : Reached c (.any (.symbol .leftBrace) :: Stmt.spellingEach body) c₂ := h₁.next hy (hd₂.trans hd₁.symm)
    have hclosing : Sound .within c.depth (fun ms a => a = body ∧ ms = [.any (.symbol .rightBrace)])
        (closing .rightBrace .expectRightBrace body) := .closing _ ⟨rfl, rfl⟩
    apply h₂.run hd₂ (hclosing hn c₂ hd₂)
    rintro _ _ ⟨rfl, rfl⟩
    exact ⟨hd₁ ▸ hbody, rfl⟩
  · exact fun _ _ hl => h₁.stopped hl.1

end Parser

theorem Layer.above_sound (k n : ℕ) : Logic.sound.Layers n (above k) (above k) := by
  refine .above (fun n hn c t rest hc _ _ => ?_) (fun k n hdeclaration => ?_) k n
  · exact (Reached.start (hc ▸ hn)).failHere _
  · rw [above_block]
    exact Parser.BlockSound.block hdeclaration

end Lox
