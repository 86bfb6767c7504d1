import LoxLexer.Binary64
import Mathlib.Algebra.Order.Field.Basic
import Mathlib.Algebra.Order.Field.Power
import Mathlib.Data.Rat.Defs
import Mathlib.Order.Monotone.Basic
import Mathlib.Tactic.Linarith
import Mathlib.Tactic.Positivity
import Mathlib.Tactic.FieldSimp
import Mathlib.Tactic.Ring

/-!
The numbers that finite magnitudes stand for. A magnitude is cut into the low bits that it drops and
the bits that it keeps, and on every such cut the number is the kept bits times a power of two
(`value_place`). So neighbours differ by that power (`value_next`), and larger magnitudes stand for
larger numbers (`value_strictMono`).
-/

namespace LoxLexer.Magnitudes
open Binary64

/-- The fraction bits, with a leading one above them unless the exponent bits are zero. -/
def significand (magnitude : ℕ) : ℕ :=
  if magnitude < 2 ^ 52 then magnitude else 2 ^ 52 + magnitude % 2 ^ 52

/-- The power of two that the last bit of the significand counts. It is the same with exponent bits zero and one. -/
def exponent (magnitude : ℕ) : ℤ :=
  if magnitude < 2 ^ 52 then -1074 else (magnitude / 2 ^ 52 : ℕ) - 1075

/-- The number that a finite magnitude stands for. -/
def value (magnitude : ℕ) : ℚ := significand magnitude * 2 ^ exponent magnitude

/-- The power of two that the last of the kept bits counts when some are dropped. -/
def gap (dropped : ℕ) : ℚ := 2 ^ ((dropped : ℤ) - 1074)

/-- Kept bits that make a magnitude with the dropped ones: at most 53, and the leading one is among them if any
    are dropped. One more than 53 bits can hold is the carry into the next exponent. -/
structure Fits (dropped kept : ℕ) : Prop where
  le : kept ≤ 2 ^ 53
  full : dropped = 0 ∨ 2 ^ 52 ≤ kept

variable {dropped kept magnitude : ℕ}

theorem gap_pos (dropped : ℕ) : 0 < gap dropped := by
  unfold gap
  positivity

theorem gap_succ (dropped : ℕ) : gap (dropped + 1) = 2 * gap dropped := by
  have next : ((dropped + 1 : ℕ) : ℤ) - 1074 = 1 + ((dropped : ℤ) - 1074) := by push_cast; ring
  rw [gap, next, zpow_add₀ (by norm_num), zpow_one, gap]

theorem gap_zero : gap 0 = (2 ^ 1074)⁻¹ := by
  rw [gap, Nat.cast_zero, zero_sub, zpow_neg]
  rfl

theorem gap_eq (dropped : ℕ) : gap dropped = 2 ^ dropped * gap 0 := by
  induction dropped with
  | zero => rw [pow_zero, one_mul]
  | succ dropped ih => rw [gap_succ, ih, pow_succ', mul_assoc]

theorem value_place (fits : Fits dropped kept) : value (dropped * 2 ^ 52 + kept) = kept * gap dropped := by
  obtain ⟨le, full⟩ := fits
  by_cases small : dropped * 2 ^ 52 + kept < 2 ^ 52
  · -- no bit is dropped, and the leading one is missing
    obtain rfl : dropped = 0 := by omega
    rw [value, significand, exponent, if_pos small, if_pos small, gap]
    simp
  rw [value, significand, exponent, if_neg small, if_neg small]
  by_cases carry : kept = 2 ^ 53
  · have rest : (dropped * 2 ^ 52 + kept) % 2 ^ 52 = 0 := by omega
    have place : (dropped * 2 ^ 52 + kept) / 2 ^ 52 = dropped + 2 := by omega
    have shifted : ((dropped + 2 : ℕ) : ℤ) - 1075 = ((dropped + 1 : ℕ) : ℤ) - 1074 := by push_cast; ring
    rw [rest, place, shifted, ← gap, gap_succ, carry]
    push_cast
    ring
  · have rest : 2 ^ 52 + (dropped * 2 ^ 52 + kept) % 2 ^ 52 = kept := by omega
    have place : (dropped * 2 ^ 52 + kept) / 2 ^ 52 = dropped + 1 := by omega
    have shifted : ((dropped + 1 : ℕ) : ℤ) - 1075 = (dropped : ℤ) - 1074 := by push_cast; ring
    rw [rest, place, shifted, gap]

/-- Every magnitude keeps bits at some place. -/
theorem exists_place (magnitude : ℕ) :
    ∃ dropped kept, magnitude = dropped * 2 ^ 52 + kept ∧ Fits dropped kept ∧ kept < 2 ^ 53 := by
  by_cases small : magnitude < 2 ^ 52
  · exact ⟨0, magnitude, by omega, ⟨by omega, .inl rfl⟩, by omega⟩
  · refine ⟨magnitude / 2 ^ 52 - 1, 2 ^ 52 + magnitude % 2 ^ 52, by omega, ⟨by omega, .inr (by omega)⟩, by omega⟩

theorem value_next (fits : Fits dropped kept) (room : kept < 2 ^ 53) :
    value (dropped * 2 ^ 52 + kept + 1) = (kept + 1) * gap dropped := by
  have next : Fits dropped (kept + 1) := ⟨by omega, fits.full.imp_right (by omega)⟩
  rw [Nat.add_assoc, value_place next]
  push_cast
  ring

theorem value_strictMono : StrictMono value := by
  refine strictMono_nat_of_lt_succ fun magnitude => ?_
  obtain ⟨dropped, kept, rfl, fits, room⟩ := exists_place magnitude
  rw [value_next fits room, value_place fits]
  have positive := gap_pos dropped
  linarith

/-- Neighbours are never more than twice as large. -/
theorem value_le_double (positive : magnitude ≠ 0) : value (magnitude + 1) ≤ 2 * value magnitude := by
  obtain ⟨dropped, kept, rfl, fits, room⟩ := exists_place magnitude
  have least : (1 : ℚ) ≤ kept := by
    have full := fits.full
    exact_mod_cast (by omega : 1 ≤ kept)
  have scaled := mul_le_mul_of_nonneg_right least (gap_pos dropped).le
  rw [value_next fits room, value_place fits]
  linarith

/-- The last bit of the significand is the last bit of the magnitude. -/
theorem significand_even (magnitude : ℕ) : significand magnitude % 2 = magnitude % 2 := by
  unfold significand
  split <;> omega

theorem value_zero : value 0 = 0 := by simp [value, significand]

/-- The number in units of the least positive one. -/
theorem value_units (magnitude : ℕ) : value magnitude = units magnitude * gap 0 := by
  rw [value, significand, exponent, units]
  by_cases small : magnitude < 2 ^ 52
  · rw [if_pos small, if_pos small, if_pos small, gap, Nat.cast_zero, zero_sub]
  · have shifted : ((magnitude / 2 ^ 52 : ℕ) : ℤ) - 1075 = ((magnitude / 2 ^ 52 - 1 : ℕ) : ℤ) - 1074 := by omega
    rw [if_neg small, if_neg small, if_neg small, shifted, ← gap, gap_eq, ← mul_assoc]
    norm_cast

end LoxLexer.Magnitudes
