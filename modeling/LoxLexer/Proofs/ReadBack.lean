import LoxLexer.Proofs.Notation
import LoxLexer.Proofs.ShortestDigits

/-!
Printed numbers, read back. Where a number is printed positionally its text is one number token with the same literal;
elsewhere the scanner takes the text apart (`printed_numbers`). The bounds between the notations are those of the
numbers, not only of their magnitudes (`leastPositional_le_iff`, `leastScientific_le_iff`).
-/

namespace LoxLexer.ReadBack
open Alphabet Pieces Binary64 Magnitudes Nearest Numerals Notation ShortestDigits

/-- How a number that is not negative is printed, and what a scan of the text by itself finds. -/
structure Prints (v : Binary64) (printed : Text) : Prop where
  /-- Zero, and what is at least a ten-thousandth and less than ten to the sixteenth: the text is one token with the
      same literal, which prints the same text again. -/
  positional : v.magnitude < infinite →
    v.magnitude = 0 ∨ 1 / 10 ^ 4 ≤ value v.magnitude ∧ value v.magnitude < 10 ^ 16 →
    ∀ config, ∃ again, Scan.ofText config printed = ⟨[again], Position.start.after printed, none⟩ ∧
      again.kind = .number ∧ again.lexeme = printed ∧ again.literal = some (.number v) ∧
      again.literal.map Literal.text = some printed
  /-- What is larger falls into the mantissa and a name. -/
  large : v.magnitude < infinite → 10 ^ 16 ≤ value v.magnitude →
    ∃ mantissa digits, Numeral mantissa ∧ digits ≠ [] ∧ (∀ d ∈ digits, Digit d) ∧ printed = mantissa ++ 'e' :: digits ∧
      ∀ config, Finds config printed [(.number, mantissa), (.identifier, 'e' :: digits)]
  /-- What is smaller falls into the mantissa, a name, a minus and another number. -/
  small : v.magnitude < infinite → v.magnitude ≠ 0 → value v.magnitude < 1 / 10 ^ 4 →
    ∃ mantissa digits, Numeral mantissa ∧ digits ≠ [] ∧ (∀ d ∈ digits, Digit d) ∧
      printed = mantissa ++ 'e' :: '-' :: digits ∧ ∀ config, Finds config printed
        [(.number, mantissa), (.identifier, ['e']), (.minus, ['-']), (.number, digits)]
  /-- Infinity is a name. -/
  infinity : ¬ v.magnitude < infinite → printed = ['i', 'n', 'f'] ∧
    ∀ config, Finds config printed [(.identifier, printed)]
  /-- The text writes a number that rounds to the one that is printed, and no number that does has fewer
      significant digits. -/
  shortest : v.magnitude < infinite → ∃ q, Written printed q ∧ Rounds q v.magnitude ∧
    ∀ r digits, Rounds r v.magnitude → Significant digits r → Significant digits q

variable {magnitude : ℕ}

/-! ### Bounds between the notations -/

private theorem value_one : value (1023 * 2 ^ 52) = 1 := by
  have place := value_place (⟨by decide, .inr le_rfl⟩ : Fits 1022 (2 ^ 52))
  have power : gap 1022 = (2 ^ 52)⁻¹ := by
    rw [gap]
    norm_num
  rw [power, Nat.cast_pow, Nat.cast_ofNat, mul_inv_cancel₀ (by positivity)] at place
  exact place

theorem leastScientific_le_iff (magnitude : ℕ) : leastScientific ≤ magnitude ↔ 10 ^ 16 ≤ value magnitude := by
  have place : leastScientific = 1075 * 2 ^ 52 + 5 * 10 ^ 15 := by decide +kernel
  have exact : value leastScientific = 10 ^ 16 := by
    rw [place, value_place ⟨by decide, .inr (by decide)⟩, gap]
    norm_num
  rw [← exact, value_strictMono.le_iff_le]

theorem leastPositional_le_iff (magnitude : ℕ) : leastPositional ≤ magnitude ↔ 1 / 10 ^ 4 ≤ value magnitude := by
  have place : leastPositional = 1008 * 2 ^ 52 + 7378697629483820 + 1 := by decide +kernel
  have fits : Fits 1008 7378697629483820 := ⟨by decide, .inr (by decide)⟩
  have power : gap 1008 = 1 / 2 ^ 66 := by
    rw [gap]
    norm_num
  constructor
  · intro le
    refine le_trans ?_ (value_strictMono.monotone le)
    rw [place, value_next fits (by decide), power]
    norm_num
  · intro large
    by_contra less
    have below : value magnitude ≤ value (1008 * 2 ^ 52 + 7378697629483820) :=
      value_strictMono.monotone (by omega)
    rw [value_place fits, power] at below
    have bound := large.trans below
    norm_num at bound

/-! ### Printed numbers -/

private theorem magnitudeText_positional (finite : magnitude < infinite)
    (within : magnitude = 0 ∨ 1 / 10 ^ 4 ≤ value magnitude ∧ value magnitude < 10 ^ 16) :
    magnitudeText magnitude = (shortest magnitude).positional := by
  have range : magnitude = 0 ∨ leastPositional ≤ magnitude ∧ magnitude < leastScientific := by
    refine within.imp_right fun between => ⟨(leastPositional_le_iff magnitude).mpr between.1, ?_⟩
    rw [← not_le, leastScientific_le_iff, not_le]
    exact between.2
  rw [magnitudeText, if_neg finite.ne, if_pos range]

private theorem magnitudeText_scientific (finite : magnitude < infinite) (positive : magnitude ≠ 0)
    (outside : value magnitude < 1 / 10 ^ 4 ∨ 10 ^ 16 ≤ value magnitude) :
    magnitudeText magnitude = (shortest magnitude).scientific := by
  have range : ¬ (magnitude = 0 ∨ leastPositional ≤ magnitude ∧ magnitude < leastScientific) := by
    rw [← not_le (a := leastScientific), leastPositional_le_iff, leastScientific_le_iff]
    rintro (zero | ⟨above, below⟩)
    · exact positive zero
    · exact outside.elim (fun less => absurd above (not_le.mpr less)) below
  rw [magnitudeText, if_neg finite.ne, if_neg range]

private theorem magnitudeText_written (finite : magnitude < infinite) :
    Written (magnitudeText magnitude) (amount (shortest magnitude)) := by
  rw [magnitudeText, if_neg finite.ne]
  split
  · exact .plain (positional_worth _)
  · exact scientific_written _

/-- The exponent that is printed has a sign below one and none above one. -/
theorem leading_shortest (finite : magnitude < infinite) (positive : magnitude ≠ 0) :
    (value magnitude < 1 → (shortest magnitude).leading < 0) ∧
      (1 < value magnitude → ¬ (shortest magnitude).leading < 0) := by
  have one : Rounds 1 (1023 * 2 ^ 52) := value_one ▸ rounds_value (by decide)
  have rounds := rounds_shortest finite
  rw [leading_neg_iff (coefficient_ne_zero positive (readsBack_shortest positive finite))]
  rw [← value_one]
  constructor
  · intro small
    by_contra large
    rw [value_one] at large
    have above := value_strictMono.monotone (rounds_le one rounds (not_lt.mp large))
    exact absurd small (not_lt.mpr above)
  · intro large small
    rw [value_one] at small
    have below := value_strictMono.monotone (rounds_le rounds one small.le)
    exact absurd large (not_lt.mpr below)

/-- A positional text is read back as the number that it was printed for. -/
theorem positional_readsBack {x : Binary64} (positive : x.negative = false) (finite : x.magnitude < infinite) :
    Binary64.ofNumeral (shortest x.magnitude).positional = x :=
  ofNumeral_of_rounds (positional_worth _) positive (rounds_shortest finite)

private theorem finds_infinite (config : Config) : Finds config ['i', 'n', 'f'] [(.identifier, ['i', 'n', 'f'])] := by
  have free : Kind.ofWord ['i', 'n', 'f'] = .identifier := by decide
  have word : Piece config (some (.ofWord ['i', 'n', 'f'])) ['i', 'n', 'f'] [] :=
    .word (by decide) (all_run isWordChar_iff (by decide)) (stops_nil _) (fun _ same => absurd same (by decide))
  rw [free] at word
  exact finds_piece word (finds_nil config)

private theorem text_of_number {v : Binary64} (positive : v.negative = false) (known : v.magnitude ≤ infinite) :
    v.text = magnitudeText v.magnitude := by
  have number : v.isNaN = false := decide_eq_false (not_lt.mpr known)
  rw [Binary64.text, number, positive, if_neg Bool.false_ne_true, if_neg Bool.false_ne_true, List.nil_append]

/-- What is neither negative nor a not-a-number is printed so. -/
theorem prints {v : Binary64} (positive : v.negative = false) (known : v.magnitude ≤ infinite) :
    Prints v v.text := by
  have shown := text_of_number positive known
  constructor
  · intro finite within config
    have positional := shown.trans (magnitudeText_positional finite within)
    have known := worth_numeral (positional_worth (shortest v.magnitude))
    have same : (Scan.tokenAt .start .number (shortest v.magnitude).positional).literal = some (.number v) :=
      congrArg (fun x => some (Literal.number x)) (positional_readsBack positive finite)
    rw [positional]
    refine ⟨_, scan_numeral known, rfl, rfl, same, ?_⟩
    rw [same, Option.map_some, Literal.text, positional]
  · intro finite large
    have nonzero : v.magnitude ≠ 0 := by
      intro zero
      rw [zero, value_zero] at large
      norm_num at large
    rw [shown, magnitudeText_scientific finite nonzero (.inr large)]
    exact scientific_up ((leading_shortest finite nonzero).2 (by linarith))
  · intro finite nonzero small
    rw [shown, magnitudeText_scientific finite nonzero (.inl small)]
    exact scientific_down ((leading_shortest finite nonzero).1 (small.trans (by norm_num)))
  · intro infinitely
    rw [shown, magnitudeText, if_pos (known.antisymm (not_lt.mp infinitely))]
    exact ⟨rfl, finds_infinite⟩
  · intro finite
    rw [shown]
    exact ⟨_, magnitudeText_written finite, rounds_shortest finite,
      fun _ _ rounds enough => significant_shortest finite rounds enough⟩

/-- Every number token of every scan prints its literal as `Prints` says. -/
theorem printed_numbers (config : Config) (text : Text) :
    ∀ token ∈ (Scan.ofText config text).tokens, token.kind = .number →
      ∃ v, token.literal = some (.number v) ∧ v.negative = false ∧ Prints v (Literal.number v).text := by
  intro token member number
  have known := (rounds_decimal (.ofNumeral token.lexeme)).known
  exact ⟨.ofNumeral token.lexeme, (number_token member number).2, rfl, prints rfl known⟩

/-- A number in each notation. -/
theorem printed_numbers_notations :
    let text := "0.3 100000000000000000000 0.00001".toList
    let middling := Scan.tokenAt .start .number "0.3".toList
    let large := Scan.tokenAt ⟨4, 1⟩ .number "100000000000000000000".toList
    let small := Scan.tokenAt ⟨26, 1⟩ .number "0.00001".toList
    (Scan.ofText {} text).tokens = [middling, large, small] ∧
      (∃ v, middling.literal = some (.number v) ∧ v.text = "0.3".toList ∧ ∃ again,
        Scan.ofText {} v.text = ⟨[again], Position.start.after v.text, none⟩ ∧ again.literal = some (.number v)) ∧
      (∃ v, large.literal = some (.number v) ∧ v.text = "1e20".toList ∧ ∃ mantissa digits,
        Finds {} v.text [(.number, mantissa), (.identifier, 'e' :: digits)]) ∧
      ∃ v, small.literal = some (.number v) ∧ v.text = "1e-5".toList ∧ ∃ mantissa digits,
        Finds {} v.text [(.number, mantissa), (.identifier, ['e']), (.minus, ['-']), (.number, digits)] := by
  intro text middling large small
  have tokens : (Scan.ofText {} text).tokens = [middling, large, small] := by decide +kernel
  refine ⟨tokens, ?_, ?_, ?_⟩
  · obtain ⟨v, literal, -, prints⟩ := printed_numbers {} text middling (by simp [tokens]) rfl
    obtain rfl : Binary64.ofNumeral middling.lexeme = v := Literal.number.inj (Option.some.inj literal)
    have above : 1 / 10 ^ 4 ≤ value (Binary64.ofNumeral middling.lexeme).magnitude :=
      (leastPositional_le_iff _).mp (by decide +kernel)
    have below : ¬ 10 ^ 16 ≤ value (Binary64.ofNumeral middling.lexeme).magnitude :=
      (leastScientific_le_iff _).not.mp (by decide +kernel)
    obtain ⟨again, scan, -, -, same, -⟩ := prints.positional (by decide +kernel) (.inr ⟨above, not_le.mp below⟩) {}
    exact ⟨_, literal, by decide +kernel, again, scan, same⟩
  · obtain ⟨v, literal, -, prints⟩ := printed_numbers {} text large (by simp [tokens]) rfl
    obtain rfl : Binary64.ofNumeral large.lexeme = v := Literal.number.inj (Option.some.inj literal)
    have above : 10 ^ 16 ≤ value (Binary64.ofNumeral large.lexeme).magnitude :=
      (leastScientific_le_iff _).mp (by decide +kernel)
    obtain ⟨mantissa, digits, -, -, -, -, finds⟩ := prints.large (by decide +kernel) above
    exact ⟨_, literal, by decide +kernel, mantissa, digits, finds {}⟩
  · obtain ⟨v, literal, -, prints⟩ := printed_numbers {} text small (by simp [tokens]) rfl
    obtain rfl : Binary64.ofNumeral small.lexeme = v := Literal.number.inj (Option.some.inj literal)
    have below : ¬ 1 / 10 ^ 4 ≤ value (Binary64.ofNumeral small.lexeme).magnitude :=
      (leastPositional_le_iff _).not.mp (by decide +kernel)
    obtain ⟨mantissa, digits, -, -, -, -, finds⟩ :=
      prints.small (by decide +kernel) (by decide +kernel) (not_le.mp below)
    exact ⟨_, literal, by decide +kernel, mantissa, digits, finds {}⟩

end LoxLexer.ReadBack
