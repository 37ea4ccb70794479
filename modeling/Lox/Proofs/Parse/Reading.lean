import Lox.Proofs.Grammar
import Lox.Proofs.Outcome
import Mathlib.Order.Nat

namespace Lox

structure Cursor.Reads (c : Cursor) (ts : List Token) (fs : List SyntaxFault) (d : Cursor) : Prop where
  rest : c.rest = ts ++ d.rest
  faults : d.faults = fs ++ c.faults
  noEnd : ∀ t ∈ ts, t.isEof = false

namespace Cursor.Reads

variable {c d e : Cursor} {ts us : List Token} {fs gs : List SyntaxFault}

lemma still (hr : d.rest = c.rest) (hf : d.faults = c.faults) : c.Reads [] [] d :=
  ⟨hr.symm, hf, by simp⟩

lemma trans (h : c.Reads ts fs d) (hn : d.Reads us gs e) : c.Reads (ts ++ us) (gs ++ fs) e where
  rest := by rw [h.rest, hn.rest, List.append_assoc]
  faults := by rw [hn.faults, h.faults, List.append_assoc]
  noEnd t ht := (List.mem_append.mp ht).elim (h.noEnd t) (hn.noEnd t)

lemma noEnd_rest (h : c.Reads ts fs d) (hd : ∀ t ∈ d.rest, t.isEof = false) : ∀ t ∈ c.rest, t.isEof = false := by
  intro t ht
  rw [h.rest, List.mem_append] at ht
  exact ht.elim (h.noEnd t) (hd t)

end Cursor.Reads

/-- Some of the tokens spell the marks, and all of them do exactly if there is no fault. -/
def Covers (ms : List Mark) (ts : List Token) (fs : List SyntaxFault) : Prop :=
  ∃ us, us.Sublist ts ∧ Spells ms us ∧ (us = ts ↔ fs = [])

namespace Covers

variable {ms ns : List Mark} {ts us : List Token} {fs gs : List SyntaxFault}

lemma nil : Covers [] [] [] :=
  ⟨[], .slnil, .nil, by simp⟩

lemma token {m : Mark} {t : Token} (h : m.Accepts t) : Covers [m] [t] [] :=
  ⟨[t], .refl _, .cons h .nil, by simp⟩

lemma lost (ht : ts ≠ []) (hf : fs ≠ []) : Covers [] ts fs :=
  ⟨[], List.nil_sublist _, .nil, by simp [ht.symm, hf]⟩

lemma append (h : Covers ms ts fs) (hn : Covers ns us gs) : Covers (ms ++ ns) (ts ++ us) (gs ++ fs) := by
  obtain ⟨vs, hv, hs, hi⟩ := h
  obtain ⟨ws, hw, hs', hi'⟩ := hn
  refine ⟨vs ++ ws, hv.append hw, hs.append hs', ?_⟩
  rw [List.append_eq_nil_iff, ← hi, ← hi']
  constructor
  · intro he
    have hl := congrArg List.length he
    simp only [List.length_append] at hl
    have hvl := hv.length_le
    have hwl := hw.length_le
    exact ⟨hw.eq_of_length (by omega), hv.eq_of_length (by omega)⟩
  · rintro ⟨rfl, rfl⟩
    rfl

lemma sublist_kinds (h : Covers ms ts fs) : (ms.map Mark.kind).Sublist (ts.map Token.kind) := by
  obtain ⟨us, hu, hs, -⟩ := h
  exact hs.kinds ▸ hu.map Token.kind

lemma kinds_eq_iff (h : Covers ms ts fs) : ms.map Mark.kind = ts.map Token.kind ↔ fs = [] := by
  obtain ⟨us, hu, hs, hi⟩ := h
  rw [← hi, ← hs.kinds]
  refine ⟨fun he => hu.eq_of_length ?_, fun he => he ▸ rfl⟩
  simpa only [List.length_map] using congrArg List.length he

lemma ne_nil (h : Covers ms ts fs) (hm : ms ≠ []) : ts ≠ [] := by
  rintro rfl
  have hs := h.sublist_kinds
  simp_all

end Covers

def Cursor.Yields (c : Cursor) (ms : List Mark) (d : Cursor) : Prop :=
  ∃ ts fs, c.Reads ts fs d ∧ Covers ms ts fs

namespace Cursor.Yields

variable {c d e : Cursor} {ms ns : List Mark}

lemma still (hr : d.rest = c.rest) (hf : d.faults = c.faults) : c.Yields [] d :=
  ⟨[], [], .still hr hf, .nil⟩

lemma trans (h : c.Yields ms d) (hn : d.Yields ns e) : c.Yields (ms ++ ns) e := by
  obtain ⟨ts, fs, hr, hc⟩ := h
  obtain ⟨us, gs, hr', hc'⟩ := hn
  exact ⟨ts ++ us, gs ++ fs, hr.trans hr', hc.append hc'⟩

lemma token {t : Token} {m : Mark} (hr : c.rest = t :: d.rest) (hf : d.faults = c.faults) (ht : t.isEof = false)
    (hm : m.Accepts t) : c.Yields [m] d :=
  ⟨[t], [], ⟨hr, hf, by simp [ht]⟩, .token hm⟩

lemma withDepth (h : c.Yields ms d) (n : ℕ) : c.Yields ms { d with depth := n } := by
  simpa using h.trans (e := { d with depth := n }) (.still rfl rfl)

lemma lose (h : c.Yields ms d) (hm : ms ≠ []) (f : SyntaxFault) : c.Yields [] { d with faults := f :: d.faults } := by
  obtain ⟨ts, fs, hr, hc⟩ := h
  refine ⟨ts, f :: fs, ⟨hr.rest, ?_, hr.noEnd⟩, .lost (hc.ne_nil hm) (List.cons_ne_nil f fs)⟩
  simp only [hr.faults, List.cons_append]

lemma length_lt (h : c.Yields ms d) (hm : ms ≠ []) : d.rest.length < c.rest.length := by
  obtain ⟨ts, fs, hr, hc⟩ := h
  have ht := List.length_pos_iff.mpr (hc.ne_nil hm)
  rw [hr.rest, List.length_append]
  omega

end Cursor.Yields

/-- A stop at `d` on the way from `c`. The only internal fault on the way is that no end mark is left. -/
structure Stopped (c : Cursor) (e : Stop) (d : Cursor) : Prop where
  reads : ∃ ts fs, c.Reads ts fs d
  depth_le : c.depth ≤ d.depth
  depth_bound : d.depth ≤ maxNesting
  missing : ∀ f, e = .internal f → f = .missingEnd ∧ ∀ t ∈ c.rest, t.isEof = false

structure Reached (c : Cursor) (ms : List Mark) (d : Cursor) : Prop where
  yields : c.Yields ms d
  depth_le : c.depth ≤ d.depth
  depth_bound : d.depth ≤ maxNesting

namespace Reached

variable {c d e : Cursor} {ms ns : List Mark} {stop : Stop}

lemma start (h : c.depth ≤ maxNesting) : Reached c [] c :=
  ⟨.still rfl rfl, le_rfl, h⟩

lemma stopped (h : Reached c ms d) (hs : Stopped d stop e) : Stopped c stop e where
  reads := by
    obtain ⟨ts, fs, hr, -⟩ := h.yields
    obtain ⟨us, gs, hr'⟩ := hs.reads
    exact ⟨_, _, hr.trans hr'⟩
  depth_le := h.depth_le.trans hs.depth_le
  depth_bound := hs.depth_bound
  missing f hf := by
    obtain ⟨ts, fs, hr, -⟩ := h.yields
    exact ⟨(hs.missing f hf).1, hr.noEnd_rest (hs.missing f hf).2⟩

lemma stopped_here (h : Reached c ms d) (hs : ∀ f, stop = .internal f → f = .missingEnd ∧ d.rest = []) :
    Stopped c stop d := by
  refine h.stopped ⟨⟨[], [], .still rfl rfl⟩, le_rfl, h.depth_bound, ?_⟩
  intro f hf
  obtain ⟨rfl, hr⟩ := hs f hf
  simp [hr]

lemma next (h : Reached c ms d) (hn : d.Yields ns e) (he : e.depth = d.depth) : Reached c (ms ++ ns) e :=
  ⟨h.yields.trans hn, he ▸ h.depth_le, he ▸ h.depth_bound⟩

end Reached

end Lox
