import Mathlib.Data.Int.DivMod
import Mathlib.Data.Prod.Lex
import Mathlib.Tactic.Linarith

/-!
# Numbers of two digits

A number written as a high digit and a low digit in a base, with signed digits of any size. Moving
the excess of the low digit to the high one by a division that truncates keeps the number. It
brings the low digit into range exactly if this was not negative, or is a multiple of the base;
and only digits in range compare as their numbers do.
-/

namespace MixedRadix

/-- The number that two digits stand for. -/
def value (base : ℤ) (digits : ℤ ×ₗ ℤ) : ℤ := (ofLex digits).1 * base + (ofLex digits).2

/-- The low digit is one of the base. -/
def InRange (base : ℤ) (digits : ℤ ×ₗ ℤ) : Prop :=
  0 ≤ (ofLex digits).2 ∧ (ofLex digits).2 < base

/-- Move the excess of the low digit to the high digit, rounding towards zero. -/
def carry (base : ℤ) (digits : ℤ ×ₗ ℤ) : ℤ ×ₗ ℤ :=
  toLex ((ofLex digits).1 + (ofLex digits).2.tdiv base, (ofLex digits).2.tmod base)

variable {base : ℤ} {digits other : ℤ ×ₗ ℤ}

@[simp] theorem value_carry (base : ℤ) (digits : ℤ ×ₗ ℤ) :
    value base (carry base digits) = value base digits := by
  have split := Int.mul_tdiv_add_tmod (ofLex digits).2 base
  simp only [value, carry, ofLex_toLex, add_mul]
  linarith

/-- What is left of the low digit is in range unless something negative is left. -/
theorem inRange_carry_iff (positive : 0 < base) :
    InRange base (carry base digits) ↔ 0 ≤ (ofLex digits).2 ∨ base ∣ (ofLex digits).2 := by
  have below := Int.tmod_lt_of_pos (ofLex digits).2 positive
  rw [Int.dvd_iff_tmod_eq_zero]
  simp only [InRange, carry, ofLex_toLex, below, and_true]
  constructor
  · intro left
    by_contra neither
    obtain ⟨negative, inexact⟩ := not_or.mp neither
    have above := Int.tmod_nonneg base (a := -(ofLex digits).2) (by omega)
    rw [Int.neg_tmod] at above
    omega
  · rintro (low | exact_)
    · exact Int.tmod_nonneg base low
    · exact exact_.ge

/-- Digits in range compare as their numbers. -/
theorem lt_iff_value_lt (inRange : InRange base digits) (inRange' : InRange base other) :
    digits < other ↔ value base digits < value base other := by
  obtain ⟨low, high⟩ := inRange
  obtain ⟨low', high'⟩ := inRange'
  rw [Prod.Lex.lt_iff, value, value]
  rcases lt_trichotomy (ofLex digits).1 (ofLex other).1 with less | same | more
  · have step : ((ofLex digits).1 + 1) * base ≤ (ofLex other).1 * base :=
      mul_le_mul_of_nonneg_right less (by omega)
    rw [add_mul, one_mul] at step
    exact iff_of_true (.inl less) (by omega)
  · rw [same]
    simp
  · have step : ((ofLex other).1 + 1) * base ≤ (ofLex digits).1 * base :=
      mul_le_mul_of_nonneg_right more (by omega)
    rw [add_mul, one_mul] at step
    exact iff_of_false (by omega) (by omega)

/-- Digits compare with all digits in range as their numbers do only if they are in range
themselves: with a borrowed low digit they come after the last number of the high digit before. -/
theorem compares_iff_inRange (above : -base < (ofLex digits).2) (below : (ofLex digits).2 < base) :
    (∀ other, InRange base other →
        (digits < other ↔ value base digits < value base other) ∧
          (other < digits ↔ value base other < value base digits)) ↔
      InRange base digits := by
  constructor
  · intro compares
    by_contra outside
    have negative : (ofLex digits).2 < 0 := by
      by_contra low
      exact outside ⟨not_lt.mp low, below⟩
    let last : ℤ ×ₗ ℤ := toLex ((ofLex digits).1 - 1, base - 1)
    have inRange : InRange base last := ⟨by simp [last]; omega, by simp [last]⟩
    have before : last < digits := Prod.Lex.lt_iff.mpr (.inl (by simp [last]))
    have less := (compares last inRange).2.mp before
    simp only [value, last, ofLex_toLex, sub_mul, one_mul] at less
    omega
  · exact fun inRange other inRange' =>
      ⟨lt_iff_value_lt inRange inRange', lt_iff_value_lt inRange' inRange⟩

end MixedRadix
