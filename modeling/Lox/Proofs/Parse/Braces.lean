import Lox.Proofs.Parse.Simple
import Mathlib.Data.List.Infix

namespace Lox

open Lox.Parser

def bracesAfter (n : ℕ) (ts : List Token) : ℕ :=
  ts.foldl (fun n t => bracesBehind n t.kind) n

@[simp] lemma bracesAfter_cons (n : ℕ) (t : Token) (ts : List Token) :
    bracesAfter n (t :: ts) = bracesAfter (bracesBehind n t.kind) ts := rfl

@[simp] lemma bracesAfter_append (n : ℕ) (ts us : List Token) :
    bracesAfter n (ts ++ us) = bracesAfter (bracesAfter n ts) us :=
  List.foldl_append

/-- The `{` that have no `}` yet, the innermost first. A `}` where none is open is ignored. -/
def unclosed (stack : List Token) : List Token → List Token
  | [] => stack
  | t :: ts =>
    match t.kind with
    | .symbol .leftBrace => unclosed (t :: stack) ts
    | .symbol .rightBrace => unclosed stack.tail ts
    | _ => unclosed stack ts

lemma length_unclosed (stack ts : List Token) : (unclosed stack ts).length = bracesAfter stack.length ts := by
  fun_induction unclosed stack ts with
  | case1 => rfl
  | case2 stack t ts hk ih =>
    rw [ih, bracesAfter_cons, hk]
    rfl
  | case3 stack t ts hk ih =>
    rw [ih, bracesAfter_cons, hk, List.length_tail]
    rfl
  | case4 stack t ts hl hr ih => rw [ih, bracesAfter_cons, bracesBehind_of_ne hl hr]

/-- The tokens leave `k` more braces open than before, and those still are. Outside of blocks none is open before. -/
def Opens (inBlock : Bool) (k : ℕ) (ts : List Token) : Prop :=
  ∀ n, (inBlock = false → n = 0) → bracesAfter n ts = n + k

namespace Opens

variable {inBlock : Bool} {k : ℕ} {ts us vs xs ys : List Token} {left right right' : Token}

lemma nil : Opens inBlock 0 [] :=
  fun _ _ => rfl

lemma append (h : Opens inBlock 0 ts) (hn : Opens inBlock k us) : Opens inBlock k (ts ++ us) := by
  intro n h0
  rw [bracesAfter_append, h n h0]
  exact hn n h0

lemma anywhere (h : Opens true k ts) : Opens inBlock k ts :=
  fun n _ => h n (by simp)

lemma of_bracesBehind {t : Token} (h : ∀ n, bracesBehind n t.kind = n) : Opens inBlock 0 [t] :=
  fun n _ => h n

lemma of_isInner (h : ∀ t ∈ ts, t.kind.isInner = true) : Opens inBlock 0 ts := by
  induction ts with
  | nil => exact nil
  | cons t ts ih =>
    have ht := h t (List.mem_cons_self ..)
    exact append (of_bracesBehind (bracesBehind_of_isInner ht)) (ih fun u hu => h u (List.mem_cons_of_mem t hu))

lemma cons (hl : left.kind = .symbol .leftBrace) (h : Opens true k ts) : Opens true (k + 1) (left :: ts) := by
  intro n _
  rw [bracesAfter_cons, hl]
  change bracesAfter (n + 1) ts = n + (k + 1)
  rw [h (n + 1) (by simp)]
  omega

lemma enclose (hl : left.kind = .symbol .leftBrace) (hr : right.kind = .symbol .rightBrace) (h : Opens true 0 ts) :
    Opens true 0 (left :: ts ++ [right]) := by
  intro n h0
  rw [bracesAfter_append, h.cons hl n h0, bracesAfter_cons, hr]
  rfl

lemma not_close (hr : right.kind = .symbol .rightBrace) (h : Opens true 0 us) : ¬Opens true k (us ++ right :: vs) := by
  intro hall
  have hzero := hall 0 (by simp)
  have hone := hall 1 (by simp)
  rw [bracesAfter_append, h _ (by simp), bracesAfter_cons, hr] at hzero hone
  change bracesAfter 0 vs = _ at hzero hone
  omega

lemma eq_of_close (hr : right.kind = .symbol .rightBrace) (hr' : right'.kind = .symbol .rightBrace)
    (h : Opens true 0 us) (h' : Opens true 0 vs) (he : us ++ right :: xs = vs ++ right' :: ys) : us = vs ∧ xs = ys := by
  rcases List.append_eq_append_iff.mp he with ⟨ws, rfl, hw⟩ | ⟨ws, rfl, hw⟩
  · cases ws with
    | nil => exact ⟨(List.append_nil us).symm, (List.cons.inj hw).2⟩
    | cons w ws =>
      obtain ⟨rfl, -⟩ := List.cons.inj hw
      exact absurd h' (h.not_close hr)
  · cases ws with
    | nil => exact ⟨List.append_nil vs, (List.cons.inj hw).2.symm⟩
    | cons w ws =>
      obtain ⟨rfl, -⟩ := List.cons.inj hw
      exact absurd h (h'.not_close hr')

end Opens

@[mk_iff] structure Balanced (ts : List Token) : Prop where
  prefixes : ∀ us, us <+: ts → us.countP (·.kind == .symbol .rightBrace) ≤ us.countP (·.kind == .symbol .leftBrace)
  total : ts.countP (·.kind == .symbol .leftBrace) = ts.countP (·.kind == .symbol .rightBrace)

instance (ts : List Token) : Decidable (Balanced ts) :=
  decidable_of_iff ((∀ us ∈ ts.inits, us.countP (·.kind == .symbol .rightBrace) ≤
    us.countP (·.kind == .symbol .leftBrace)) ∧
    ts.countP (·.kind == .symbol .leftBrace) = ts.countP (·.kind == .symbol .rightBrace)) (by
      simp only [List.mem_inits, balanced_iff])

lemma bracesBehind_add_count {n : ℕ} {k : Token.Kind} (h : (k == .symbol .rightBrace) = true → 1 ≤ n) :
    bracesBehind n k + (if k == .symbol .rightBrace then 1 else 0) =
      n + (if k == .symbol .leftBrace then 1 else 0) := by
  by_cases hl : k = .symbol .leftBrace
  · subst hl
    rfl
  by_cases hr : k = .symbol .rightBrace
  · subst hr
    exact Nat.sub_add_cancel (h rfl)
  · simp [bracesBehind_of_ne hl hr, hl, hr]

lemma bracesAfter_add_count {n : ℕ} {ts : List Token}
    (h : ∀ us, us <+: ts → us.countP (·.kind == .symbol .rightBrace) ≤ n + us.countP (·.kind == .symbol .leftBrace)) :
    bracesAfter n ts + ts.countP (·.kind == .symbol .rightBrace) = n + ts.countP (·.kind == .symbol .leftBrace) := by
  induction ts generalizing n with
  | nil => rfl
  | cons t ts ih =>
    have hfirst : (t.kind == .symbol .rightBrace) = true → 1 ≤ n := by
      intro hr
      have hone := h [t] (by simp)
      simpa [eq_of_beq hr] using hone
    have hbehind := bracesBehind_add_count hfirst
    have hothers : ∀ us, us <+: ts → us.countP (·.kind == .symbol .rightBrace) ≤
        bracesBehind n t.kind + us.countP (·.kind == .symbol .leftBrace) := by
      intro us hu
      have hcons := h (t :: us) (List.cons_prefix_cons.mpr ⟨rfl, hu⟩)
      simp only [List.countP_cons] at hcons
      omega
    have hrest := ih hothers
    simp only [bracesAfter_cons, List.countP_cons]
    omega

lemma Balanced.opens {ts : List Token} (h : Balanced ts) : Opens true 0 ts := by
  intro n _
  have hcount := bracesAfter_add_count fun us hu => (h.prefixes us hu).trans (Nat.le_add_left _ n)
  have htotal := h.total
  omega

def AtEnd (ts : List Token) : Prop :=
  ∀ t ∈ ts.head?, t.isEof = true

lemma AtEnd.eq_nil {ts : List Token} (h : AtEnd ts) (hno : ∀ t ∈ ts, t.isEof = false) : ts = [] := by
  cases ts with
  | nil => rfl
  | cons t ts => exact absurd (h t rfl) (by simp [hno])

namespace Parser

lemma bracesBehind_add {inBlock : Bool} {n braces : ℕ} {k : Token.Kind} (hn : inBlock = false → n = 0)
    (h : ¬(inBlock && braces == 0 && k == .symbol .rightBrace) = true) :
    bracesBehind (n + braces) k = n + bracesBehind braces k := by
  by_cases hl : k = .symbol .leftBrace
  · subst hl
    rfl
  by_cases hr : k = .symbol .rightBrace
  · subst hr
    change n + braces - 1 = n + (braces - 1)
    -- outside of blocks a stray brace leaves both counts at zero, inside of one recovery stops before it
    cases inBlock with
    | false => rw [hn rfl, Nat.zero_add, Nat.zero_add]
    | true =>
      have hopen : braces ≠ 0 := by simpa using h
      omega
  · rw [bracesBehind_of_ne hl hr, bracesBehind_of_ne hl hr]

lemma exists_skipped (inBlock : Bool) (braces : ℕ) (ts : List Token) :
    ∃ us k, ts = us ++ (boundary inBlock braces ts).getD [] ∧ (∀ t ∈ us, t.isEof = false) ∧
      (∀ n, (inBlock = false → n = 0) → bracesAfter (n + braces) us = n + k) ∧
      (k = 0 ∨ AtEnd ((boundary inBlock braces ts).getD [])) := by
  fun_induction boundary inBlock braces ts with
  | case1 braces => exact ⟨[], braces, rfl, by simp, fun _ _ => rfl, .inr (by simp [AtEnd])⟩
  | case2 braces t rest ht => exact ⟨[], braces, rfl, by simp, fun _ _ => rfl, .inr (by simpa [AtEnd] using ht)⟩
  | case3 braces t rest ht hb =>
    obtain rfl : braces = 0 := by
      simp only [Bool.and_eq_true, beq_iff_eq] at hb
      exact hb.1.2
    exact ⟨[], 0, rfl, by simp, fun _ _ => rfl, .inl rfl⟩
  | case4 braces t rest ht hb hs =>
    simp only [Bool.and_eq_true, beq_iff_eq] at hs
    refine ⟨[t], 0, rfl, by simpa using ht, fun n _ => ?_, .inl rfl⟩
    rw [bracesAfter_cons, hs.1, hs.2]
    rfl
  | case5 braces t rest ht hb hs hk =>
    simp only [Bool.and_eq_true, beq_iff_eq] at hk
    refine ⟨[t], 0, rfl, by simpa using ht, fun n hn => ?_, .inl rfl⟩
    rw [bracesAfter_cons, bracesBehind_add hn hb, hk.1]
    rfl
  | case6 braces t rest ht hb hs hk ih =>
    obtain ⟨us, k, hrest, hno, hafter, hend⟩ := ih
    refine ⟨t :: us, k, by rw [List.cons_append, ← hrest], ?_, fun n hn => ?_, hend⟩
    · simpa [ht] using hno
    · rw [bracesAfter_cons, bracesBehind_add hn hb]
      exact hafter n hn

lemma boundary_of_atEnd {inBlock : Bool} {braces : ℕ} {ts : List Token} (h : AtEnd ts) :
    (boundary inBlock braces ts).getD [] = ts := by
  cases ts with
  | nil => rfl
  | cons t ts =>
    rw [boundary, if_pos (h t rfl)]
    rfl

end Parser

end Lox
