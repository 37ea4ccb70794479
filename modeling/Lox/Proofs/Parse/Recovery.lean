import Lox.Proofs.Parse.Steps

namespace Lox.Parser

lemma boundary_some {inBlock : Bool} {braces : ℕ} {ts rest : List Token}
    (h : boundary inBlock braces ts = some rest) : ∃ us, ts = us ++ rest ∧ ∀ t ∈ us, t.isEof = false := by
  induction ts generalizing braces with
  | nil => cases h
  | cons t ts ih =>
    rw [boundary] at h
    split at h
    · cases h
      exact ⟨[], rfl, by simp⟩
    · rename_i he
      rw [Bool.not_eq_true] at he
      split at h
      · cases h
        exact ⟨[], rfl, by simp⟩
      split at h
      · cases h
        exact ⟨[t], rfl, by simp [he]⟩
      split at h
      · cases h
        exact ⟨[t], rfl, by simp [he]⟩
      · obtain ⟨us, rfl, hu⟩ := ih h
        exact ⟨t :: us, rfl, by simpa [he] using hu⟩

lemma boundary_none {inBlock : Bool} {braces : ℕ} {ts : List Token} (h : boundary inBlock braces ts = none) :
    ∀ t ∈ ts, t.isEof = false := by
  induction ts generalizing braces with
  | nil => simp
  | cons t ts ih =>
    rw [boundary] at h
    split at h
    · cases h
    · rename_i he
      rw [Bool.not_eq_true] at he
      split at h
      · cases h
      split at h
      · cases h
      split at h
      · cases h
      · simpa [he] using ih h

lemma boundary_lt {inBlock : Bool} {t : Token} {ts rest : List Token} (ht : t.isEof = false)
    (hb : inBlock = true → t.kind ≠ .symbol .rightBrace) (h : boundary inBlock 0 (t :: ts) = some rest) :
    rest.length < (t :: ts).length := by
  rw [boundary] at h
  simp only [ht, Bool.false_eq_true, if_false] at h
  split at h
  · rename_i hc
    simp only [Bool.and_eq_true, beq_iff_eq] at hc
    exact absurd hc.2 (hb hc.1.1)
  split at h
  · cases h
    exact Nat.lt_succ_self _
  split at h
  · cases h
    exact Nat.lt_succ_self _
  · obtain ⟨us, rfl, -⟩ := boundary_some h
    simp only [List.length_cons, List.length_append]
    omega

lemma boundary_lt_of_suffix {inBlock : Bool} {t : Token} {ts us rest : List Token} (ht : t.isEof = false)
    (hb : inBlock = true → t.kind ≠ .symbol .rightBrace) (hs : ts <:+ t :: us)
    (h : boundary inBlock 0 ts = some rest) : rest.length < (t :: us).length := by
  rcases List.suffix_cons_iff.mp hs with rfl | hs
  · exact boundary_lt ht hb h
  · obtain ⟨vs, rfl, -⟩ := boundary_some h
    have hle := hs.length_le
    simp only [List.length_append, List.length_cons] at hle ⊢
    omega

lemma ends_recovering {inBlock : Bool} {p : Parser Stmt} {c : Cursor} {ok : Option Stmt → Cursor → Prop}
    {stop : Stop → Cursor → Prop} (hok : ∀ s d, p c = .ok s d → ok (some s) d)
    (hskip : ∀ f d rest, p c = .error (.fault f) d → boundary inBlock 0 d.rest = some rest →
      ok none ⟨rest, c.depth, f :: d.faults⟩)
    (hlost : ∀ f d, p c = .error (.fault f) d → boundary inBlock 0 d.rest = none →
      stop (.internal .missingEnd) ⟨[], c.depth, f :: d.faults⟩)
    (hstop : ∀ f d, p c = .error (.internal f) d → stop (.internal f) d) :
    Ends (recovering inBlock p) c ok stop := by
  unfold Ends recovering
  cases hp : p c with
  | ok s d => exact hok s d hp
  | error e d =>
    cases e with
    | internal f => exact hstop f d hp
    | fault f =>
      simp only [bind, EStateM.bind, record, setDepth, synchronize]
      cases hb : boundary inBlock 0 d.rest with
      | some rest => exact hskip f d rest hp hb
      | none => exact hlost f d hp hb

/-- An invariant of the declarations read so far. Every declaration takes a token, so the bound on their number is
never reached before the tokens run out. -/
lemma ends_declarations {ends : Token.Kind → Bool} {p : Parser (Option Stmt)} {c : Cursor}
    (inv : List Stmt → Cursor → Prop) {stop : Stop → Cursor → Prop} (hstart : inv [] c)
    (hstep : ∀ done d t rest, inv done d → d.rest = t :: rest → ends t.kind = false →
      Ends p d (fun o e => inv (done ++ o.toList) e ∧ e.rest.length < d.rest.length) stop)
    (hout : ∀ done d, inv done d → d.rest = [] → stop (.internal .missingEnd) d) :
    Ends (declarations ends p) c (fun body d => inv body d ∧ ∃ t rest, d.rest = t :: rest ∧ ends t.kind = true)
      stop := by
  have loop : ∀ n (done : Array Stmt) d, d.rest.length ≤ n → inv done.toList d →
      Ends (declarationsWithin ends p done n) d
        (fun body e => inv body.toList e ∧ ∃ t rest, e.rest = t :: rest ∧ ends t.kind = true) stop := by
    intro n
    induction n with
    | zero =>
      intro done d hn hi
      exact hout done.toList d hi (List.length_eq_zero_iff.mp (Nat.le_zero.mp hn))
    | succ n ih =>
      intro done d hn hi
      rw [declarationsWithin, ends_bind]
      unfold peek
      cases hr : d.rest with
      | nil => simpa only [Ends, hr] using hout done.toList d hi hr
      | cons t rest =>
        simp only [Ends, hr]
        change Ends (if ends t.kind = true then pure done else _) d _ stop
        split
        · rename_i ht
          exact ⟨hi, t, rest, hr, ht⟩
        · rename_i ht
          rw [ends_bind]
          apply (hstep done.toList d t rest hi hr (by simpa using ht)).mono _ (fun _ _ => id)
          rintro (_ | s) e ⟨hi', hlt⟩
          · exact ih done e (by omega) (by simpa using hi')
          · exact ih (done.push s) e (by omega) (by simpa using hi')
  exact (ends_map _ _).mpr (loop c.rest.length #[] c le_rfl hstart)

end Lox.Parser
