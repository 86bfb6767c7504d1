import LoxLexer.Proofs.Nearest
import LoxLexer.Proofs.Pieces

/-!
What number tokens stand for. A numeral writes a rational number, its digits counted in tens (`Worth`), and the
literal of a number token is what this number rounds to, however long the lexeme is (`number_literals`). So only
the number that is written matters, and zeros that do not change it do not change the literal either.
-/

namespace LoxLexer.Numerals
open Alphabet Pieces Binary64 Magnitudes Nearest

/-- The count that digits write. -/
def count (digits : Text) : ℕ := Nat.ofDigitChars 10 digits 0

/-- The number that a numeral writes; of the digits behind a point each counts a tenth of the one before it. -/
inductive Worth : Text → ℚ → Prop
  | whole {digits} : digits ≠ [] → (∀ d ∈ digits, Digit d) → Worth digits (count digits)
  | fraction {digits places} : digits ≠ [] → (∀ d ∈ digits, Digit d) → places ≠ [] → (∀ d ∈ places, Digit d) →
      Worth (digits ++ '.' :: places) (count digits + count places / 10 ^ places.length)

/-- The number that a decimal is. -/
def amount (decimal : Decimal) : ℚ := decimal.coefficient * 10 ^ decimal.exponent

variable {numeral digits places : Text} {q r : ℚ}

theorem worth_numeral (worth : Worth numeral q) : Numeral numeral := by
  cases worth with
  | whole nonempty all => exact .whole nonempty all
  | fraction nonempty all places others => exact .fraction nonempty all places others

theorem numeral_worth (known : Numeral numeral) : ∃ q, Worth numeral q := by
  cases known with
  | whole nonempty all => exact ⟨_, .whole nonempty all⟩
  | fraction nonempty all places others => exact ⟨_, .fraction nonempty all places others⟩

/-! ### Digits -/

theorem count_append (digits places : Text) : count (digits ++ places) = count digits * 10 ^ places.length + count places := by
  rw [count, Nat.ofDigitChars_append, Nat.ofDigitChars_eq_ofDigitChars_zero, mul_comm]
  rfl

theorem count_zeros (zeros : ℕ) : count (List.replicate zeros '0') = 0 := by
  rw [count, Nat.ofDigitChars_replicate_zero, mul_zero]

theorem zeros_digits (zeros : ℕ) : ∀ d ∈ List.replicate zeros '0', Digit d := by
  intro d member
  obtain rfl := List.eq_of_mem_replicate member
  decide

/-! ### Decimals -/

private theorem denominator_pos (decimal : Decimal) : 0 < decimal.denominator := by
  rw [Decimal.denominator]
  positivity

theorem amount_quotient (decimal : Decimal) : amount decimal = decimal.numerator / decimal.denominator := by
  obtain ⟨coefficient, exponent⟩ := decimal
  obtain ⟨places, rfl | rfl⟩ := Int.eq_nat_or_neg exponent
  · simp [amount, Decimal.numerator, Decimal.denominator]
  · simp [amount, Decimal.numerator, Decimal.denominator, div_eq_mul_inv]

theorem rounds_decimal (decimal : Decimal) : Rounds (amount decimal) (nearest decimal).magnitude := by
  rw [amount_quotient]
  exact rounds_nearest (denominator_pos decimal) decimal.numerator

private theorem digits_pointless (all : ∀ d ∈ digits, Digit d) : ∀ d ∈ digits, d ≠ '.' := by
  rintro d member rfl
  exact absurd (all _ member) (by decide)

private theorem ofNumeral_whole (all : ∀ d ∈ digits, Digit d) : Decimal.ofNumeral digits = ⟨count digits, 0⟩ := by
  have pointless := digits_pointless all
  have front : digits.takeWhile (· ≠ '.') = digits := by
    simpa using takeWhile_run (differs_iff '.') pointless (stops_nil (· ≠ '.'))
  have back : digits.dropWhile (· ≠ '.') = [] := by
    simpa using dropWhile_run (differs_iff '.') pointless (stops_nil (· ≠ '.'))
  rw [Decimal.ofNumeral, front, back, List.drop_nil, List.append_nil]
  rfl

private theorem ofNumeral_fraction (all : ∀ d ∈ digits, Digit d) (places : Text) :
    Decimal.ofNumeral (digits ++ '.' :: places) = ⟨count (digits ++ places), -places.length⟩ := by
  have pointless := digits_pointless all
  have point : Stops (· ≠ '.') ('.' :: places) := stops_cons.mpr (by simp)
  have front : (digits ++ '.' :: places).takeWhile (· ≠ '.') = digits :=
    takeWhile_run (differs_iff '.') pointless point
  have back : (digits ++ '.' :: places).dropWhile (· ≠ '.') = '.' :: places :=
    dropWhile_run (differs_iff '.') pointless point
  rw [Decimal.ofNumeral, front, back, List.drop_one, List.tail_cons]
  rfl

/-- The decimal of a numeral is the number that it writes. -/
theorem amount_ofNumeral (worth : Worth numeral q) : amount (.ofNumeral numeral) = q := by
  cases worth with
  | whole nonempty all =>
    rw [ofNumeral_whole all, amount]
    simp
  | @fraction digits places nonempty all others allOthers =>
    rw [ofNumeral_fraction all, amount]
    dsimp only
    rw [count_append, zpow_neg, zpow_natCast, ← div_eq_mul_inv]
    push_cast
    field_simp

/-- A numeral writes one number. -/
theorem worth_unique (worth : Worth numeral q) (other : Worth numeral r) : q = r :=
  (amount_ofNumeral worth).symm.trans (amount_ofNumeral other)

theorem rounds_numeral (worth : Worth numeral q) : Rounds q (ofNumeral numeral).magnitude := by
  rw [← amount_ofNumeral worth]
  exact rounds_decimal _

/-- What a numeral is read as is all that its number rounds to, negative numbers apart. -/
theorem ofNumeral_of_rounds {x : Binary64} (worth : Worth numeral q) (positive : x.negative = false)
    (rounds : Rounds q x.magnitude) : Binary64.ofNumeral numeral = x := by
  obtain ⟨negative, magnitude, bound⟩ := x
  obtain rfl : negative = false := positive
  obtain rfl : (Binary64.ofNumeral numeral).magnitude = magnitude := rounds_unique (rounds_numeral worth) rounds
  rfl

/-! ### Zeros that do not count -/

private theorem worth_leading (worth : Worth numeral q) (zeros : ℕ) : Worth (List.replicate zeros '0' ++ numeral) q := by
  have same : ∀ digits, count (List.replicate zeros '0' ++ digits) = count digits := by
    intro digits
    rw [count_append, count_zeros, zero_mul, zero_add]
  have nonempty : ∀ {digits : Text}, digits ≠ [] → List.replicate zeros '0' ++ digits ≠ [] := by
    intro digits written
    simp [written]
  have all : ∀ {digits : Text}, (∀ d ∈ digits, Digit d) → ∀ d ∈ List.replicate zeros '0' ++ digits, Digit d :=
    fun digit => List.forall_mem_append.mpr ⟨zeros_digits zeros, digit⟩
  cases worth with
  | whole written digits =>
    rw [← same]
    exact .whole (nonempty written) (all digits)
  | fraction written digits others places =>
    rw [← List.append_assoc, ← same]
    exact .fraction (nonempty written) (all digits) others places

private theorem worth_trailing (worth : Worth numeral q) (point : '.' ∈ numeral) (zeros : ℕ) :
    Worth (numeral ++ List.replicate zeros '0') q := by
  cases worth with
  | whole nonempty digits => exact absurd (digits _ point) (by decide)
  | @fraction digits places nonempty all others allOthers =>
    have same : (count places / 10 ^ places.length : ℚ) =
        count (places ++ List.replicate zeros '0') / 10 ^ (places ++ List.replicate zeros '0').length := by
      rw [count_append, count_zeros, List.length_append, List.length_replicate, pow_add]
      push_cast
      field_simp
      ring
    rw [same, List.append_assoc, List.cons_append]
    refine .fraction nonempty all (by simp [others]) (List.forall_mem_append.mpr ⟨allOthers, zeros_digits zeros⟩)

/-! ### Tokens -/

theorem numeral_of_piece {config : Config} {lexeme rest : Text} (piece : Piece config (some .number) lexeme rest) :
    Numeral lexeme := by
  generalize number : some Kind.number = kind at piece
  cases piece with
  | whole nonempty all => exact .whole nonempty all
  | fraction nonempty all places others => exact .fraction nonempty all places others
  | @punctuation c kind _ named =>
    have plain : ∀ entry ∈ punctuation, entry.2 ≠ .number := by decide
    have listed : (c, kind) ∈ punctuation := (of_eq_iff (by simp)).mp named
    exact absurd (Option.some.inj number).symm (plain _ listed)
  | @alone c alone paired _ named =>
    have plain : ∀ entry ∈ operators, entry.2.1 ≠ .number := by decide
    have listed : (c, alone, paired) ∈ operators := (of_eq_iff (by simp)).mp named
    exact absurd (Option.some.inj number).symm (plain _ listed)
  | @paired c alone paired _ named =>
    have plain : ∀ entry ∈ operators, entry.2.2 ≠ .number := by decide
    have listed : (c, alone, paired) ∈ operators := (of_eq_iff (by simp)).mp named
    exact absurd (Option.some.inj number).symm (plain _ listed)
  | @word c cs =>
    have word := isWord_ofWord (c :: cs)
    rw [← Option.some.inj number] at word
    cases word
  | _ => cases number

theorem number_token {config : Config} {text : Text} {token : SourceToken}
    (member : token ∈ (Scan.ofText config text).tokens) (number : token.kind = .number) :
    Numeral token.lexeme ∧ token.literal = some (.number (.ofNumeral token.lexeme)) := by
  obtain ⟨place, kind, rest, piece, same⟩ := run_token member
  obtain rfl : kind = .number := by
    rw [same] at number
    exact number
  refine ⟨numeral_of_piece piece, ?_⟩
  rw [same]
  rfl

/-- Numerals that write the same number have the same literal. -/
theorem ofNumeral_eq {other : Text} (worth : Worth numeral q) (again : Worth other q) :
    Binary64.ofNumeral other = .ofNumeral numeral :=
  ofNumeral_of_rounds again rfl (rounds_numeral worth)

/-- The literal of a number token is what the number its lexeme writes rounds to: no less than zero and never a
    not-a-number, and zero exactly up to half the least positive number. Of two number tokens, whatever scans they are
    in, the one whose lexeme writes at least as much has no smaller literal, and the same one for the same number;
    zeros in front and zeros behind the places change nothing. -/
theorem number_literals (config : Config) (text : Text) :
    ∀ token ∈ (Scan.ofText config text).tokens, token.kind = .number →
      Numeral token.lexeme ∧ ∃ q x, Worth token.lexeme q ∧ token.literal = some (.number x) ∧
        x.negative = false ∧ x.isNaN = false ∧ Rounds q x.magnitude ∧
        (x.magnitude = infinite ↔ 2 ^ 1024 - 2 ^ 970 ≤ q) ∧ (x.magnitude = 0 ↔ q ≤ 2 ^ (-1075 : ℤ)) ∧
        ∀ setting source, ∀ other ∈ (Scan.ofText setting source).tokens, other.kind = .number →
          ∀ r y, Worth other.lexeme r → other.literal = some (.number y) →
            (q ≤ r → y.magnitude = infinite ∨ x.magnitude < infinite ∧ value x.magnitude ≤ value y.magnitude) ∧
            (q = r → y = x) ∧
            (∀ zeros, other.lexeme = List.replicate zeros '0' ++ token.lexeme → y = x) ∧
            ∀ zeros, '.' ∈ token.lexeme → other.lexeme = token.lexeme ++ List.replicate zeros '0' → y = x := by
  intro token member number
  obtain ⟨known, literal⟩ := number_token member number
  obtain ⟨q, worth⟩ := numeral_worth known
  have rounds := rounds_numeral worth
  refine ⟨known, q, .ofNumeral token.lexeme, worth, literal, rfl, ?_, rounds, rounds.overflow, rounds_zero_iff rounds, ?_⟩
  · exact decide_eq_false (not_lt.mpr rounds.known)
  intro setting source other otherMember otherNumber r y otherWorth otherLiteral
  obtain rfl : .ofNumeral other.lexeme = y := by
    have same := (number_token otherMember otherNumber).2.symm.trans otherLiteral
    exact Literal.number.inj (Option.some.inj same)
  have others := rounds_numeral otherWorth
  refine ⟨fun le => ?_, ?_, ?_, ?_⟩
  · have ordered := rounds_le rounds others le
    rcases Nat.lt_or_ge (ofNumeral other.lexeme).magnitude infinite with finite | top
    · exact .inr ⟨ordered.trans_lt finite, value_strictMono.monotone ordered⟩
    · exact .inl (others.known.antisymm top)
  · rintro rfl
    exact ofNumeral_eq worth otherWorth
  · intro zeros same
    exact ofNumeral_eq worth (same ▸ worth_leading worth zeros)
  · intro zeros point same
    exact ofNumeral_eq worth (same ▸ worth_trailing worth point zeros)

/-- A number halfway between two neighbours goes to the even one, and a padded tenth is the same tenth. -/
theorem number_literals_halfway :
    let text := "9007199254740993 0.1 00.1".toList
    let tie := Scan.tokenAt .start .number "9007199254740993".toList
    let tenth := Scan.tokenAt ⟨17, 1⟩ .number "0.1".toList
    let padded := Scan.tokenAt ⟨21, 1⟩ .number "00.1".toList
    (Scan.ofText {} text).tokens = [tie, tenth, padded] ∧ padded.literal = tenth.literal ∧
      (∃ x, tie.literal = some (.number x) ∧ Rounds 9007199254740993 x.magnitude ∧ x.magnitude = 1076 * 2 ^ 52) ∧
      ∃ x y, tenth.literal = some (.number x) ∧ tie.literal = some (.number y) ∧ x.magnitude < infinite ∧
        value x.magnitude ≤ value y.magnitude := by
  intro text tie tenth padded
  have tokens : (Scan.ofText {} text).tokens = [tie, tenth, padded] := by decide +kernel
  have isTie : tie ∈ (Scan.ofText {} text).tokens := by simp [tokens]
  have isTenth : tenth ∈ (Scan.ofText {} text).tokens := by simp [tokens]
  have isPadded : padded ∈ (Scan.ofText {} text).tokens := by simp [tokens]
  have whole : Worth tie.lexeme 9007199254740993 := by
    have digits : count tie.lexeme = 9007199254740993 := by decide +kernel
    have worth : Worth tie.lexeme (count tie.lexeme) :=
      .whole (by decide +kernel) (all_run isDigit_iff (by decide +kernel))
    rw [digits] at worth
    exact_mod_cast worth
  have tenthPart : Worth tenth.lexeme (count ['0'] + count ['1'] / 10 ^ 1) :=
    @Worth.fraction ['0'] ['1'] (by decide) (all_run isDigit_iff rfl) (by decide) (all_run isDigit_iff rfl)
  obtain ⟨-, q, x, worth, literal, -, -, rounds, -⟩ := number_literals {} text tie isTie rfl
  obtain rfl := worth_unique worth whole
  obtain ⟨-, r, y, otherWorth, otherLiteral, -, -, -, -, -, compare⟩ := number_literals {} text tenth isTenth rfl
  obtain rfl := worth_unique otherWorth tenthPart
  have less : (count ['0'] + count ['1'] / 10 ^ 1 : ℚ) ≤ 9007199254740993 := by
    rw [show count ['0'] = 0 from rfl, show count ['1'] = 1 from rfl]
    norm_num
  have paddedWorth : Worth padded.lexeme _ := worth_leading tenthPart 1
  have value : x.magnitude = 1076 * 2 ^ 52 := by
    obtain rfl : Binary64.ofNumeral tie.lexeme = x := Literal.number.inj (Option.some.inj literal)
    decide +kernel
  have finite : x.magnitude ≠ infinite := by
    rw [value]
    decide
  have ordered := (compare {} text tie isTie rfl _ x whole literal).1 less
  have same := (compare {} text padded isPadded rfl _ _ paddedWorth rfl).2.2.1 1 rfl
  refine ⟨tokens, ?_, ⟨x, literal, rounds, value⟩, y, x, otherLiteral, literal, ordered.resolve_left finite⟩
  rw [otherLiteral, ← same]
  rfl

end LoxLexer.Numerals
