import LoxLexer.Rounding
import LoxLexer.Proofs.Magnitudes
import Mathlib.Algebra.Order.Group.Unbundled.Abs

/-!
Rounding to binary64. What a number rounds to is said by distances alone (`Rounds`); the midpoints between
neighbouring magnitudes say the same (`Cell`), and there it is seen that a larger number never rounds to a
smaller magnitude (`rounds_le`). The rounded quotient of a decimal lies in the cell of what it is rounded
to (`cell_rounded`), so that is what the decimal rounds to (`rounds_nearest`).
-/

namespace LoxLexer.Nearest
open Binary64 Magnitudes

-- Powers of counts are the core library's, as in the definitions.
attribute [local instance(high)] instPowNat

/-- The finite magnitude that stands for the number nearest to a given one, with an even significand where another is as
    near. From halfway between the largest finite number and the next power of two on, it is infinity. -/
structure Rounds (q : ℚ) (magnitude : ℕ) : Prop where
  known : magnitude ≤ infinite
  overflow : magnitude = infinite ↔ 2 ^ 1024 - 2 ^ 970 ≤ q
  nearest : magnitude < infinite → ∀ other < infinite, |q - value magnitude| ≤ |q - value other|
  even : magnitude < infinite → ∀ other < infinite, other ≠ magnitude →
    |q - value magnitude| = |q - value other| → significand magnitude % 2 = 0

variable {q r : ℚ} {magnitude other : ℕ}

/-! ### Midpoints -/

/-- The midpoint between the numbers of a magnitude and the next. -/
def middle (magnitude : ℕ) : ℚ := (value magnitude + value (magnitude + 1)) / 2

private theorem value_lt_middle (magnitude : ℕ) : value magnitude < middle magnitude := by
  have next : value magnitude < value (magnitude + 1) := value_strictMono (Nat.lt_succ_self magnitude)
  rw [middle]
  linarith

private theorem middle_lt_value (magnitude : ℕ) : middle magnitude < value (magnitude + 1) := by
  have next : value magnitude < value (magnitude + 1) := value_strictMono (Nat.lt_succ_self magnitude)
  rw [middle]
  linarith

private theorem middle_strictMono : StrictMono middle :=
  strictMono_nat_of_lt_succ fun magnitude => (middle_lt_value magnitude).trans (value_lt_middle (magnitude + 1))

private theorem middle_place {dropped kept : ℕ} (fits : Fits dropped kept) (room : kept < 2 ^ 53) :
    middle (dropped * 2 ^ 52 + kept) = (kept + 1 / 2) * gap dropped := by
  rw [middle, value_next fits room, value_place fits]
  ring

/-- The numbers up to the midpoints on either side of a magnitude; the midpoints are among them if it is even. -/
structure Cell (magnitude : ℕ) (q : ℚ) : Prop where
  lower : ∀ below, below + 1 = magnitude → middle below ≤ q
  upper : q ≤ middle magnitude
  lowerEven : ∀ below, below + 1 = magnitude → middle below = q → magnitude % 2 = 0
  upperEven : q = middle magnitude → magnitude % 2 = 0

private theorem cell_le (cell : Cell magnitude q) (otherCell : Cell other r) (le : q ≤ r) : magnitude ≤ other := by
  by_contra larger
  obtain ⟨below, rfl⟩ : ∃ below, magnitude = below + 1 := ⟨magnitude - 1, by omega⟩
  have mono : middle other ≤ middle below := middle_strictMono.monotone (by omega)
  have lower : middle below ≤ q := cell.lower below rfl
  have upper : r ≤ middle other := otherCell.upper
  have same : other = below := middle_strictMono.injective (by linarith)
  subst same
  have even := cell.lowerEven other rfl (by linarith)
  have odd := otherCell.upperEven (by linarith)
  omega

private theorem cell_value (magnitude : ℕ) : Cell magnitude (value magnitude) := by
  refine ⟨?_, (value_lt_middle magnitude).le, ?_, fun same => absurd same (value_lt_middle magnitude).ne⟩
  · rintro below rfl
    exact (middle_lt_value below).le
  · rintro below rfl same
    exact absurd same (middle_lt_value below).ne

/-- Between two numbers the smaller is the nearer one up to their midpoint. -/
theorem near_iff {a b : ℚ} (less : a < b) : |q - a| ≤ |q - b| ↔ q ≤ (a + b) / 2 := by
  rw [← sq_le_sq, ← sub_nonneg]
  have factored : (q - b) ^ 2 - (q - a) ^ 2 = (b - a) * (a + b - 2 * q) := by ring
  rw [factored, mul_nonneg_iff_of_pos_left (sub_pos.mpr less)]
  constructor <;> intro <;> linarith

/-- The larger is the nearer one from their midpoint on. -/
theorem near_iff' {a b : ℚ} (less : a < b) : |q - b| ≤ |q - a| ↔ (a + b) / 2 ≤ q := by
  have mirrored : |-q - -b| ≤ |-q - -a| ↔ -q ≤ (-b + -a) / 2 := near_iff (neg_lt_neg less)
  rw [neg_sub_neg, neg_sub_neg, abs_sub_comm b, abs_sub_comm a] at mirrored
  rw [mirrored]
  constructor <;> intro <;> linarith

/-- No magnitude is nearer to a number of a cell, and one that is as near lies behind a midpoint in the cell. -/
theorem cell_near (cell : Cell magnitude q) (differs : other ≠ magnitude) :
    |q - value magnitude| ≤ |q - value other| ∧
      (|q - value magnitude| = |q - value other| → magnitude % 2 = 0) := by
  rcases Nat.lt_or_gt_of_ne differs with smaller | larger
  · obtain ⟨below, rfl⟩ : ∃ below, magnitude = below + 1 := ⟨magnitude - 1, by omega⟩
    have mono : value other ≤ value below := value_strictMono.monotone (by omega)
    have less : value other < value (below + 1) := value_strictMono smaller
    have lower : middle below ≤ q := cell.lower below rfl
    have between : (value other + value (below + 1)) / 2 ≤ middle below := by
      rw [middle]
      linarith
    refine ⟨(near_iff' less).mpr (between.trans lower), fun same => cell.lowerEven below rfl ?_⟩
    exact lower.antisymm (((near_iff less).mp same.ge).trans between)
  · have mono : value (magnitude + 1) ≤ value other := value_strictMono.monotone larger
    have less : value magnitude < value other := value_strictMono larger
    have between : middle magnitude ≤ (value magnitude + value other) / 2 := by
      rw [middle]
      linarith
    refine ⟨(near_iff less).mpr (cell.upper.trans between), fun same => cell.upperEven ?_⟩
    exact cell.upper.antisymm (between.trans ((near_iff' less).mp same.ge))

/-! ### The law of rounding -/

/-- Half a unit in the last place above the largest finite number. -/
theorem middle_last : middle (infinite - 1) = 2 ^ 1024 - 2 ^ 970 := by
  have last : infinite - 1 = 2045 * 2 ^ 52 + (2 ^ 53 - 1) := by decide
  have fits : Fits 2045 (2 ^ 53 - 1) := ⟨by decide, .inr (by decide)⟩
  have half : gap 2045 = 2 * 2 ^ 970 := by
    rw [gap, ← pow_succ', ← zpow_natCast]
    norm_num
  have whole : (2 : ℚ) ^ 1024 = 2 ^ 54 * 2 ^ 970 := by rw [← pow_add]
  rw [last, middle_place fits (by decide), half, whole]
  generalize (2 : ℚ) ^ 970 = unit
  push_cast
  ring

private theorem rounds_of_cell (finite : magnitude < infinite) (cell : Cell magnitude q) : Rounds q magnitude where
  known := finite.le
  overflow := by
    refine iff_of_false finite.ne ?_
    rw [← middle_last]
    intro above
    have within : middle magnitude ≤ middle (infinite - 1) := middle_strictMono.monotone (by omega)
    have last : magnitude = infinite - 1 :=
      middle_strictMono.injective (within.antisymm (above.trans cell.upper))
    have even := cell.upperEven (cell.upper.antisymm (within.trans above))
    rw [last] at even
    exact absurd even (by decide)
  nearest _ other _ := by
    by_cases same : other = magnitude
    · rw [same]
    · exact (cell_near cell same).1
  even _ other _ differs alike := by
    rw [significand_even]
    exact (cell_near cell differs).2 alike

private theorem rounds_infinite (above : 2 ^ 1024 - 2 ^ 970 ≤ q) : Rounds q infinite where
  known := le_rfl
  overflow := iff_of_true rfl above
  nearest finite := absurd finite (lt_irrefl infinite)
  even finite := absurd finite (lt_irrefl infinite)

/-- Distances to the neighbours alone put a number into the cell. -/
theorem cell_of_rounds (rounds : Rounds q magnitude) (finite : magnitude < infinite) : Cell magnitude q := by
  have small : magnitude + 1 = infinite → q < middle magnitude := by
    intro last
    have bound : ¬ 2 ^ 1024 - 2 ^ 970 ≤ q := fun above => finite.ne (rounds.overflow.mpr above)
    rw [← middle_last, ← last] at bound
    exact not_le.mp bound
  have next : value magnitude < value (magnitude + 1) := value_strictMono (Nat.lt_succ_self magnitude)
  constructor
  · rintro below rfl
    exact (near_iff' (value_strictMono (Nat.lt_succ_self below))).mp (rounds.nearest finite below (by omega))
  · by_cases last : magnitude + 1 = infinite
    · exact (small last).le
    · exact (near_iff next).mp (rounds.nearest finite (magnitude + 1) (by omega))
  · rintro below rfl same
    have less : value below < value (below + 1) := value_strictMono (Nat.lt_succ_self below)
    have near := (near_iff less).mpr same.ge
    rw [← significand_even]
    exact rounds.even finite below (by omega) (by omega) (((near_iff' less).mpr same.le).antisymm near)
  · intro same
    have inside : magnitude + 1 ≠ infinite := fun last => (small last).ne same
    have near := (near_iff' next).mpr same.ge
    rw [← significand_even]
    exact rounds.even finite (magnitude + 1) (by omega) (by omega) (((near_iff next).mpr same.le).antisymm near)

/-- A larger number never rounds to a smaller magnitude. -/
theorem rounds_le (rounds : Rounds q magnitude) (others : Rounds r other) (le : q ≤ r) : magnitude ≤ other := by
  by_cases infinitely : other = infinite
  · rw [infinitely]
    exact rounds.known
  · have below : other < infinite := lt_of_le_of_ne others.known infinitely
    have finite : magnitude < infinite := by
      refine lt_of_le_of_ne rounds.known fun top => infinitely ?_
      exact others.overflow.mpr ((rounds.overflow.mp top).trans le)
    exact cell_le (cell_of_rounds rounds finite) (cell_of_rounds others below) le

/-- A number rounds to one magnitude only. -/
theorem rounds_unique (rounds : Rounds q magnitude) (others : Rounds q other) : magnitude = other :=
  (rounds_le rounds others le_rfl).antisymm (rounds_le others rounds le_rfl)

theorem rounds_value (finite : magnitude < infinite) : Rounds (value magnitude) magnitude :=
  rounds_of_cell finite (cell_value magnitude)

/-- Exactly the numbers up to half the least positive one round to zero. -/
theorem rounds_zero_iff (rounds : Rounds q magnitude) : magnitude = 0 ↔ q ≤ 2 ^ (-1075 : ℤ) := by
  have half : middle 0 = 2 ^ (-1075 : ℤ) := by
    have first := middle_place (⟨by decide, .inl rfl⟩ : Fits 0 0) (by decide)
    rw [zero_mul, zero_add] at first
    have unit : gap 0 = 2 * 2 ^ (-1075 : ℤ) := by
      rw [gap, ← zpow_one_add₀ (by norm_num)]
      norm_num
    rw [first, unit]
    generalize (2 : ℚ) ^ (-1075 : ℤ) = half
    push_cast
    ring
  rw [← half]
  constructor
  · rintro rfl
    exact (cell_of_rounds rounds (by decide)).upper
  · intro small
    have cell : Cell 0 q := ⟨by omega, small, by omega, fun _ => rfl⟩
    exact rounds_unique rounds (rounds_of_cell (by decide) cell)

/-! ### The rounded quotient -/

/-- The whole number nearest to another number, and an even one halfway between two. -/
structure HalfEven (x : ℚ) (kept : ℕ) : Prop where
  lower : kept - 1 / 2 ≤ x
  upper : x ≤ kept + 1 / 2
  lowerEven : kept - 1 / 2 = x → kept % 2 = 0
  upperEven : x = kept + 1 / 2 → kept % 2 = 0

private theorem halfEven_quotient {numerator denominator : ℕ} (positive : 0 < denominator) :
    HalfEven (numerator / denominator) (roundHalfEven numerator denominator) := by
  have division := Nat.div_add_mod numerator denominator
  have rest := Nat.mod_lt numerator positive
  generalize quotient_eq : numerator / denominator = quotient at division
  generalize rest_eq : numerator % denominator = remainder at division rest
  have whole : (numerator / denominator : ℚ) = quotient + remainder / denominator := by
    rw [← division]
    push_cast
    field_simp
  have bound : (0 : ℚ) ≤ remainder / denominator ∧ (remainder / denominator : ℚ) < 1 := by
    refine ⟨by positivity, ?_⟩
    rw [div_lt_one (by positivity)]
    exact_mod_cast rest
  have half : ((remainder / denominator : ℚ) ≤ 1 / 2 ↔ 2 * remainder ≤ denominator) ∧
      (1 / 2 ≤ (remainder / denominator : ℚ) ↔ denominator ≤ 2 * remainder) := by
    constructor
    · rw [div_le_div_iff₀ (by positivity) (by positivity), one_mul, mul_comm]
      norm_cast
    · rw [div_le_div_iff₀ (by positivity) (by positivity), one_mul, mul_comm (remainder : ℚ)]
      norm_cast
  unfold roundHalfEven
  rw [whole, quotient_eq, rest_eq]
  dsimp only
  split
  · next down =>
    have below := half.1.mpr (by omega)
    refine ⟨by linarith, by linarith, fun same => absurd same (by linarith), fun same => ?_⟩
    have middle := half.2.mp (by linarith)
    omega
  · next up =>
    have above := half.2.mpr (by omega)
    refine ⟨by push_cast; linarith, by push_cast; linarith, fun same => ?_, fun same => ?_⟩
    · have middle := half.1.mp (by push_cast at same; linarith)
      omega
    · push_cast at same
      linarith

section
variable {dropped kept : ℕ} {x : ℚ}

/-- The midpoint below the kept bits: half a bit below them, or less where the number has all bits that fit. -/
theorem middle_below (fits : Fits dropped kept) (full : dropped = 0 ∨ 2 ^ 52 ≤ x) {below : ℕ}
    (next : below + 1 = dropped * 2 ^ 52 + kept) :
    middle below = (kept - 1 / 2) * gap dropped ∨ middle below < x * gap dropped := by
  have positive := gap_pos dropped
  by_cases first : dropped ≠ 0 ∧ kept = 2 ^ 52
  · -- the magnitude below has one exponent less
    obtain ⟨nonzero, rfl⟩ := first
    obtain ⟨less, rfl⟩ := Nat.exists_eq_succ_of_ne_zero nonzero
    obtain rfl : below = less * 2 ^ 52 + (2 ^ 53 - 1) := by omega
    have under : Fits less (2 ^ 53 - 1) := ⟨by omega, .inr (by omega)⟩
    have large : 2 ^ 52 ≤ x := full.resolve_left nonzero
    have scaled := mul_le_mul_of_nonneg_right large positive.le
    have last : ((2 ^ 53 - 1 : ℕ) : ℚ) = 2 * 2 ^ 52 - 1 := by norm_num
    right
    refine lt_of_lt_of_le ?_ scaled
    rw [gap_succ] at positive
    rw [middle_place under (by omega), gap_succ, last]
    linarith
  · obtain ⟨one, rfl⟩ : ∃ one, kept = one + 1 := ⟨kept - 1, by have := fits.full; omega⟩
    obtain rfl : below = dropped * 2 ^ 52 + one := by omega
    have under : Fits dropped one := ⟨by have := fits.le; omega, by have := fits.full; omega⟩
    left
    rw [middle_place under (by have := fits.le; omega)]
    push_cast
    ring

/-- The midpoint above the kept bits: half a bit above them, or more where they carry. -/
theorem middle_above (fits : Fits dropped kept) :
    middle (dropped * 2 ^ 52 + kept) = (kept + 1 / 2) * gap dropped ∨
      (kept + 1 / 2) * gap dropped < middle (dropped * 2 ^ 52 + kept) := by
  by_cases carry : kept = 2 ^ 53
  · have carried : dropped * 2 ^ 52 + kept = (dropped + 1) * 2 ^ 52 + 2 ^ 52 := by omega
    have positive := gap_pos dropped
    right
    rw [carried, middle_place ⟨by decide, .inr le_rfl⟩ (by decide), gap_succ, carry]
    push_cast
    linarith
  · exact .inl (middle_place fits (by have := fits.le; omega))

/-- Rounding the kept bits rounds the number, since a carry only moves on to the next exponent. -/
theorem cell_of_halfEven (fits : Fits dropped kept) (full : dropped = 0 ∨ 2 ^ 52 ≤ x) (rounded : HalfEven x kept) :
    Cell (dropped * 2 ^ 52 + kept) (x * gap dropped) := by
  have positive := gap_pos dropped
  have parity : (dropped * 2 ^ 52 + kept) % 2 = kept % 2 := by omega
  have above := mul_le_mul_of_nonneg_right rounded.upper positive.le
  have under := mul_le_mul_of_nonneg_right rounded.lower positive.le
  constructor
  · intro below next
    rcases middle_below fits full next with same | less
    · exact same.le.trans under
    · exact less.le
  · rcases middle_above fits with same | more
    · exact above.trans same.ge
    · exact above.trans more.le
  · intro below next same
    rw [parity]
    rcases middle_below fits full next with half | less
    · exact rounded.lowerEven (mul_right_cancel₀ positive.ne' (half.symm.trans same))
    · exact absurd same less.ne
  · intro same
    rw [parity]
    rcases middle_above fits with half | more
    · exact rounded.upperEven (mul_right_cancel₀ positive.ne' (same.trans half))
    · exact absurd same (above.trans_lt more).ne

end

section
variable {denominator : ℕ} (positive : 0 < denominator)
include positive

/-- The bits dropped are those beyond 53. -/
theorem scaled_bounds (scaled : ℕ) :
    let dropped := (scaled / denominator).log2 - 52
    scaled < denominator * 2 ^ dropped * 2 ^ 53 ∧ (dropped ≠ 0 → denominator * 2 ^ dropped * 2 ^ 52 ≤ scaled) := by
  intro dropped
  rw [mul_assoc, mul_assoc, ← pow_add, ← pow_add]
  constructor
  · rw [mul_comm, ← Nat.div_lt_iff_lt_mul positive]
    exact Nat.lt_log2_self.trans_le (Nat.pow_le_pow_right (by decide) (by omega))
  · intro nonzero
    have log : dropped + 52 = (scaled / denominator).log2 := by omega
    have nonzero : scaled / denominator ≠ 0 := by
      intro zero
      simp [dropped, zero] at nonzero
    rw [log, mul_comm, ← Nat.le_div_iff_mul_le positive]
    exact Nat.log2_self_le nonzero

/-- A count of the least positive number, rounded to the bits that are not dropped. -/
theorem cell_scaled (scaled : ℕ) :
    let dropped := (scaled / denominator).log2 - 52
    Cell (dropped * 2 ^ 52 + roundHalfEven scaled (denominator * 2 ^ dropped)) (scaled / denominator * gap 0) := by
  intro dropped
  obtain ⟨above, below⟩ := scaled_bounds positive scaled
  have unit : 0 < denominator * 2 ^ dropped := by positivity
  have rounded : HalfEven _ (roundHalfEven scaled (denominator * 2 ^ dropped)) := halfEven_quotient unit
  generalize roundHalfEven scaled (denominator * 2 ^ dropped) = kept at rounded ⊢
  generalize ratio : (scaled / (denominator * 2 ^ dropped : ℕ) : ℚ) = x at rounded
  have small : x < 2 ^ 53 := by
    rw [← ratio, div_lt_iff₀' (by exact_mod_cast unit)]
    exact_mod_cast above
  have full : dropped = 0 ∨ 2 ^ 52 ≤ x := by
    by_cases none : dropped = 0
    · exact .inl none
    · right
      rw [← ratio, le_div_iff₀' (by exact_mod_cast unit)]
      exact_mod_cast below none
  have fits : Fits dropped kept := by
    refine ⟨?_, full.imp_right fun large => ?_⟩
    · have near : (kept : ℚ) < 2 ^ 53 + 1 := by linarith [rounded.lower]
      exact Nat.lt_succ_iff.mp (by exact_mod_cast near)
    · have near : (2 ^ 52 : ℚ) < kept + 1 := by linarith [rounded.upper]
      exact Nat.lt_succ_iff.mp (by exact_mod_cast near)
  have same : x * gap dropped = scaled / denominator * gap 0 := by
    have nonzero : (denominator : ℚ) ≠ 0 := by positivity
    rw [← ratio, gap_eq, Nat.cast_mul, Nat.cast_pow, Nat.cast_ofNat]
    field_simp
  rw [← same]
  exact cell_of_halfEven fits full rounded

/-- What is cut off at infinity is the magnitude of the cell, were there no end to the exponents. -/
theorem cell_rounded (numerator : ℕ) :
    ∃ rounded, nearestMagnitude numerator denominator = min infinite rounded ∧
      Cell rounded (numerator / denominator) := by
  unfold nearestMagnitude
  generalize exact : numerator * 2 ^ (1074 : ℕ) = scaled
  refine ⟨_, rfl, ?_⟩
  have whole : ∀ places : ℕ, ((numerator * 2 ^ places : ℕ) : ℚ) * (2 ^ places)⁻¹ = numerator := by
    intro places
    push_cast
    field_simp
  have unit : scaled * gap 0 = numerator := by
    rw [← exact, gap_zero]
    exact whole 1074
  have same : scaled / denominator * gap 0 = (numerator / denominator : ℚ) := by
    rw [div_mul_eq_mul_div, unit]
  rw [← same]
  exact cell_scaled positive scaled

/-- A quotient rounds to its nearest magnitude. -/
theorem rounds_nearest (numerator : ℕ) : Rounds (numerator / denominator) (nearestMagnitude numerator denominator) := by
  obtain ⟨rounded, same, cell⟩ := cell_rounded positive numerator
  rw [same]
  by_cases finite : rounded < infinite
  · rw [min_eq_right finite.le]
    exact rounds_of_cell finite cell
  · rw [min_eq_left (not_lt.mp finite)]
    have top : 0 < infinite := by decide
    have below : middle (rounded - 1) ≤ numerator / denominator := cell.lower _ (by omega)
    refine rounds_infinite ((middle_last.symm.le.trans ?_).trans below)
    exact middle_strictMono.monotone (by omega)

end

end LoxLexer.Nearest
