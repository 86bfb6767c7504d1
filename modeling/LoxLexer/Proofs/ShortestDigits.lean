import LoxLexer.Shortest
import LoxLexer.Proofs.Numerals

/-!
The shortest decimal of a magnitude. The decimals that read back as it make up one interval around its number
(`readsBack_between`), so on a grid of decimals it is enough to try the two neighbours of the number
(`readsBack_neighbour`). The search finds the coarsest grid with a decimal that reads back (`shortest_coarsest`), and
on no other grid does one have fewer digits (`shortest_fewest`).
-/

namespace LoxLexer.ShortestDigits
open Binary64 Magnitudes Nearest Numerals

-- Powers of counts are the core library's, as in the definitions.
attribute [local instance(high)] instPowNat

variable {magnitude : ℕ} {q r : ℚ} {decimal : Decimal}

/-! ### Reading back -/

private theorem readsBack_iff : ReadsBack magnitude decimal ↔ Rounds (amount decimal) magnitude := by
  constructor
  · rintro rfl
    exact rounds_decimal decimal
  · exact rounds_unique (rounds_decimal decimal)

/-- A decimal between two numbers that round to a magnitude reads back as it. -/
theorem readsBack_between (low : Rounds q magnitude) (high : Rounds r magnitude) (above : q ≤ amount decimal)
    (below : amount decimal ≤ r) : ReadsBack magnitude decimal :=
  (rounds_le (rounds_decimal decimal) high below).antisymm (rounds_le low (rounds_decimal decimal) above)

/-- The unit of the finest grid. -/
private def tick : ℚ := 10 ^ (-1074 : ℤ)

private theorem tick_pos : 0 < tick := by
  unfold tick
  positivity

private theorem value_tick (magnitude : ℕ) : value magnitude = scaled magnitude * tick := by
  have fives : ∀ places : ℕ, (2 : ℚ) ^ (-places : ℤ) = (5 ^ places : ℕ) * 10 ^ (-places : ℤ) := by
    intro places
    have ten : (10 : ℚ) ^ (-places : ℤ) = 2 ^ (-places : ℤ) * 5 ^ (-places : ℤ) := by
      rw [← mul_zpow]
      norm_num
    rw [ten, mul_left_comm, zpow_neg 5, zpow_natCast, Nat.cast_pow, Nat.cast_ofNat, mul_inv_cancel₀ (by positivity),
      mul_one]
  have unit : gap 0 = (5 ^ (1074 : ℕ) : ℕ) * tick := by
    rw [gap, Nat.cast_zero, zero_sub]
    exact fives 1074
  rw [value_units, scaled, Nat.cast_mul, mul_assoc, unit]

private theorem amount_tick (coefficient place : ℕ) :
    amount ⟨coefficient, (place : ℤ) - 1074⟩ = (coefficient * 10 ^ place : ℕ) * tick := by
  rw [amount, sub_eq_add_neg, zpow_add₀ (by norm_num), ← tick, zpow_natCast]
  push_cast
  ring

private theorem amount_le_iff (coefficient place count : ℕ) :
    amount ⟨coefficient, (place : ℤ) - 1074⟩ ≤ count * tick ↔ coefficient * 10 ^ place ≤ count := by
  rw [amount_tick, mul_le_mul_iff_left₀ tick_pos]
  exact Nat.cast_le

private theorem le_amount_iff (coefficient place count : ℕ) :
    count * tick ≤ amount ⟨coefficient, (place : ℤ) - 1074⟩ ↔ count ≤ coefficient * 10 ^ place := by
  rw [amount_tick, mul_le_mul_iff_left₀ tick_pos]
  exact Nat.cast_le

/-- Where a decimal of a grid reads back, one of the two neighbours of the number does. -/
theorem readsBack_neighbour (finite : magnitude < infinite) {coefficient place : ℕ}
    (reads : ReadsBack magnitude ⟨coefficient, (place : ℤ) - 1074⟩) :
    ReadsBack magnitude ⟨scaled magnitude / 10 ^ place, (place : ℤ) - 1074⟩ ∨
      ReadsBack magnitude ⟨scaled magnitude / 10 ^ place + 1, (place : ℤ) - 1074⟩ := by
  have rounds := readsBack_iff.mp reads
  have exact := rounds_value finite
  rw [value_tick] at exact
  rw [amount_tick] at rounds
  have step : 0 < 10 ^ place := Nat.pow_pos (by decide)
  rcases Nat.lt_or_ge (scaled magnitude / 10 ^ place) coefficient with above | below
  · have upper := Nat.mul_le_mul_right (10 ^ place) above
    have lower : scaled magnitude ≤ (scaled magnitude / 10 ^ place + 1) * 10 ^ place :=
      (Nat.lt_mul_of_div_lt (Nat.lt_succ_self _) step).le
    exact .inr (readsBack_between exact rounds ((le_amount_iff _ _ _).mpr lower) ((amount_le_iff _ _ _).mpr upper))
  · have lower := Nat.mul_le_mul_right (10 ^ place) below
    have upper := Nat.div_mul_le_self (scaled magnitude) (10 ^ place)
    exact .inl (readsBack_between rounds exact ((le_amount_iff _ _ _).mpr lower) ((amount_le_iff _ _ _).mpr upper))

/-! ### The search -/

/-- On the finest grid the number itself stands. -/
theorem readsBack_exact (finite : magnitude < infinite) :
    ReadsBack magnitude ⟨scaled magnitude, ((0 : ℕ) : ℤ) - 1074⟩ := by
  rw [readsBack_iff, amount_tick, pow_zero, mul_one, ← value_tick]
  exact rounds_value finite

/-- The search ends at a decimal that reads back. -/
theorem readsBack_shortestFrom (finite : magnitude < infinite) (place : ℕ) :
    ReadsBack magnitude (shortestFrom magnitude place) := by
  induction place with
  | zero => exact readsBack_exact finite
  | succ place ih =>
    rw [shortestFrom]
    split
    · next below =>
      split
      · next both => exact both.1
      · exact below
    · split
      · next above => exact above
      · exact ih

/-- The search stops on the first grid that has a decimal that reads back. -/
theorem le_shortestFrom (finite : magnitude < infinite) {coefficient place top : ℕ} (within : place ≤ top)
    (reads : ReadsBack magnitude ⟨coefficient, (place : ℤ) - 1074⟩) :
    (place : ℤ) - 1074 ≤ (shortestFrom magnitude top).exponent := by
  induction top with
  | zero =>
    obtain rfl := Nat.le_zero.mp within
    exact le_rfl
  | succ top ih =>
    have here : (place : ℤ) - 1074 ≤ ((top + 1 : ℕ) : ℤ) - 1074 := by omega
    rw [shortestFrom]
    split
    · split <;> exact here
    · next noBelow =>
      split
      · exact here
      · next noAbove =>
        refine ih (Nat.le_of_lt_succ (Nat.lt_of_le_of_ne within ?_))
        rintro rfl
        exact (readsBack_neighbour finite reads).elim noBelow noAbove

/-- The search starts above the leading digit. -/
theorem scaled_lt (count : ℕ) : count < 10 ^ ((count.log2 + 1) * 28 / 93 + 1) := by
  refine Nat.lt_of_lt_of_le Nat.lt_log2_self ?_
  generalize count.log2 + 1 = bits
  have enough : bits * 28 ≤ 93 * (bits * 28 / 93 + 1) := by omega
  generalize bits * 28 / 93 + 1 = places at enough ⊢
  refine (Nat.pow_le_pow_iff_left (by decide : 28 ≠ 0)).mp ?_
  calc (2 ^ bits) ^ 28 = 2 ^ (bits * 28) := (Nat.pow_mul ..).symm
    _ ≤ 2 ^ (93 * places) := Nat.pow_le_pow_right (by decide) enough
    _ = (2 ^ 93) ^ places := Nat.pow_mul ..
    _ ≤ (10 ^ 28) ^ places := Nat.pow_le_pow_left (by decide) places
    _ = (10 ^ places) ^ 28 := by rw [← Nat.pow_mul, ← Nat.pow_mul, mul_comm]

section
variable (positive : magnitude ≠ 0) (finite : magnitude < infinite)
include positive finite

/-- No number as large as twice that of a magnitude rounds to it. -/
theorem rounds_lt_double (rounds : Rounds q magnitude) : q < 2 * value magnitude := by
  have upper := (cell_of_rounds rounds finite).upper
  have next := value_le_double positive
  have positiveValue : 0 < value magnitude := by
    rw [← value_zero]
    exact value_strictMono (Nat.pos_of_ne_zero positive)
  rw [middle] at upper
  linarith

omit finite in
theorem coefficient_ne_zero (reads : ReadsBack magnitude decimal) : decimal.coefficient ≠ 0 := by
  intro zero
  have rounds := readsBack_iff.mp reads
  have same : Rounds (value 0) 0 := rounds_value (by decide)
  rw [amount, zero, Nat.cast_zero, zero_mul, ← value_zero] at rounds
  exact positive (rounds_unique rounds same)

/-- No decimal of a coarser grid reads back. -/
theorem shortest_coarsest (reads : ReadsBack magnitude decimal) : decimal.exponent ≤ (shortest magnitude).exponent := by
  obtain ⟨coefficient, exponent⟩ := decimal
  rw [shortest, if_neg positive]
  generalize start : ((scaled magnitude).log2 + 1) * 28 / 93 + 1 = top
  have least := le_shortestFrom finite (Nat.zero_le top) (readsBack_exact finite)
  by_cases fine : exponent < -1074
  · dsimp only
    omega
  obtain ⟨place, rfl⟩ : ∃ place : ℕ, exponent = (place : ℤ) - 1074 := ⟨(exponent + 1074).toNat, by omega⟩
  rcases Nat.lt_or_ge top place with above | within
  · -- a decimal that far above the leading digit is too large
    have least : 1 ≤ coefficient := Nat.pos_of_ne_zero (coefficient_ne_zero positive reads)
    have small := rounds_lt_double positive finite (readsBack_iff.mp reads)
    have large : 2 * scaled magnitude ≤ coefficient * 10 ^ place := by
      have start := start ▸ scaled_lt (scaled magnitude)
      calc 2 * scaled magnitude ≤ 10 * 10 ^ top := Nat.mul_le_mul (by decide) start.le
        _ = 10 ^ (top + 1) := (Nat.pow_succ').symm
        _ ≤ 10 ^ place := Nat.pow_le_pow_right (by decide) above
        _ ≤ coefficient * 10 ^ place := Nat.le_mul_of_pos_left _ least
    have bound := (le_amount_iff _ _ _).mpr large
    rw [value_tick] at small
    push_cast at bound
    linarith
  · exact le_shortestFrom finite within reads

theorem readsBack_shortest : ReadsBack magnitude (shortest magnitude) := by
  rw [shortest, if_neg positive]
  exact readsBack_shortestFrom finite _

/-- No decimal that reads back has fewer digits. -/
theorem shortest_fewest (reads : ReadsBack magnitude decimal) {digits : ℕ} (few : decimal.coefficient < 10 ^ digits) :
    (shortest magnitude).coefficient < 10 ^ digits := by
  by_contra many
  have coarsest := shortest_coarsest positive finite reads
  have nonzero := coefficient_ne_zero positive reads
  generalize shortest_eq : shortest magnitude = best at many coarsest
  obtain ⟨coefficient, exponent⟩ := best
  -- with more digits the shortest decimal is no smaller than a power of ten on a coarser grid
  have power : amount ⟨1, exponent + digits⟩ = 10 ^ digits * 10 ^ exponent := by
    rw [amount, zpow_add₀ (by norm_num), zpow_natCast, Nat.cast_one, one_mul, mul_comm]
  have above : amount decimal ≤ amount ⟨1, exponent + digits⟩ := by
    rw [power, amount]
    have fewer : (decimal.coefficient : ℚ) ≤ 10 ^ digits := by exact_mod_cast few.le
    have finer : (10 : ℚ) ^ decimal.exponent ≤ 10 ^ exponent := zpow_le_zpow_right₀ (by norm_num) coarsest
    exact mul_le_mul fewer finer (by positivity) (by positivity)
  have below : amount ⟨1, exponent + digits⟩ ≤ amount ⟨coefficient, exponent⟩ := by
    rw [power, amount]
    have more : (10 : ℚ) ^ digits ≤ coefficient := by exact_mod_cast not_lt.mp many
    exact mul_le_mul_of_nonneg_right more (by positivity)
  have best := readsBack_shortest positive finite
  rw [shortest_eq] at best
  have coarser := readsBack_between (readsBack_iff.mp reads) (readsBack_iff.mp best) above below
  have limit := shortest_coarsest positive finite coarser
  rw [shortest_eq] at limit
  dsimp only at limit
  obtain rfl : digits = 0 := by omega
  omega

end

/-- A number that so many digits can write, wherever the point stands. -/
def Significant (digits : ℕ) (q : ℚ) : Prop :=
  ∃ (coefficient : ℕ) (exponent : ℤ), coefficient < 10 ^ digits ∧ q = coefficient * 10 ^ exponent

theorem rounds_shortest (finite : magnitude < infinite) : Rounds (amount (shortest magnitude)) magnitude := by
  by_cases positive : magnitude = 0
  · obtain rfl := positive
    have zero : amount (shortest 0) = value 0 := by simp [shortest, amount, value_zero]
    rw [zero]
    exact rounds_value finite
  · exact readsBack_iff.mp (readsBack_shortest positive finite)

/-- Digits that are enough for some number that rounds to a magnitude are enough for its shortest decimal. -/
theorem significant_shortest (finite : magnitude < infinite) (rounds : Rounds q magnitude) {digits : ℕ}
    (enough : Significant digits q) : Significant digits (amount (shortest magnitude)) := by
  obtain ⟨coefficient, exponent, few, rfl⟩ := enough
  by_cases positive : magnitude = 0
  · obtain rfl := positive
    exact ⟨0, 0, Nat.pow_pos (by decide), by simp [shortest, amount]⟩
  · have reads : ReadsBack magnitude ⟨coefficient, exponent⟩ := readsBack_iff.mpr rounds
    exact ⟨_, _, shortest_fewest positive finite reads few, rfl⟩

end LoxLexer.ShortestDigits
