import Lox.Parse.Layer
import Mathlib.Tactic.Lemma
import Mathlib.Data.Nat.Notation

namespace Lox.Layer

variable (below : Layer)

lemma climb_primary : (climb below).primary = Parser.primary below.expression := rfl

lemma climb_unary : (climb below).unary = Parser.unary below.unary (climb below).primary := rfl

lemma climb_chain (tier : Tier) :
    (climb below).chain tier = Parser.chain tier (below.operand tier) (below.chain tier) := rfl

lemma climb_level (tier : Tier) :
    (climb below).level tier = Parser.level ((climb below).operand tier) ((climb below).chain tier) := by
  cases tier <;> rfl

lemma climb_expression :
    (climb below).expression = Parser.assignment below.expression ((climb below).level .equality) := rfl

lemma climb_statement : (climb below).statement = Parser.statement (climb below).expression below.block := rfl

lemma climb_declaration :
    (climb below).declaration = Parser.declaration (climb below).expression (climb below).statement := rfl

lemma climb_block : (climb below).block = Parser.block (climb below).declaration := rfl

lemma above_eq_climb (n : ℕ) : ∃ below, above n = climb below := by
  cases n <;> exact ⟨_, rfl⟩

lemma above_level (n : ℕ) (tier : Tier) :
    (above n).level tier = Parser.level ((above n).operand tier) ((above n).chain tier) := by
  obtain ⟨below, h⟩ := above_eq_climb n
  rw [h, climb_level]

lemma above_declaration (n : ℕ) :
    (above n).declaration = Parser.declaration (above n).expression (above n).statement := by
  obtain ⟨below, h⟩ := above_eq_climb n
  rw [h, climb_declaration]

lemma above_block (n : ℕ) : (above n).block = Parser.block (above n).declaration := by
  obtain ⟨below, h⟩ := above_eq_climb n
  rw [h, climb_block]

end Lox.Layer
