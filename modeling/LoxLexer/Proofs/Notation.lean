import LoxLexer.Proofs.Numerals

/-!
Decimals as they are written. Positional notation is a numeral (`positional_worth`), and a scan of a numeral is one
token (`scan_numeral`). Scientific notation is a numeral and a power of ten (`scientific_written`), and a scan cuts it
where the power begins (`finds_up`, `finds_down`). Both write the number that the decimal is.
-/

namespace LoxLexer.Notation
open Alphabet Pieces Numerals

-- Powers of counts are the core library's, as in the definitions.
attribute [local instance(high)] instPowNat

/-- The number that a text writes: a numeral, and a power of ten if there is an `e`. -/
inductive Written : Text → ℚ → Prop
  | plain {numeral q} : Worth numeral q → Written numeral q
  | up {mantissa q digits} : Worth mantissa q → digits ≠ [] → (∀ d ∈ digits, Digit d) →
      Written (mantissa ++ 'e' :: digits) (q * 10 ^ count digits)
  | down {mantissa q digits} : Worth mantissa q → digits ≠ [] → (∀ d ∈ digits, Digit d) →
      Written (mantissa ++ 'e' :: '-' :: digits) (q / 10 ^ count digits)

variable {decimal : Decimal} {q : ℚ} {numeral mantissa digits rest : Text}

/-! ### Counts -/

theorem ofNat_digits (n : ℕ) : ∀ d ∈ Text.ofNat n, Digit d := fun d member =>
  (isDigit_iff d).mp (Nat.isDigit_of_mem_toDigits (by decide) (by decide) member)

private theorem ofNat_ne_nil (n : ℕ) : Text.ofNat n ≠ [] := Nat.toDigits_ne_nil

theorem count_ofNat (n : ℕ) : count (Text.ofNat n) = n := Nat.ofDigitChars_ten_toDigits

private theorem length_ofNat_le {n places : ℕ} (positive : 0 < places) : (Text.ofNat n).length ≤ places ↔ n < 10 ^ places :=
  Nat.length_toDigits_le_iff (by decide) positive

/-! ### Positional notation -/

/-- A count padded to so many places. -/
theorem padded {n places : ℕ} (positive : 0 < places) (fits : n < 10 ^ places) :
    let digits := List.replicate (places - (Text.ofNat n).length) '0' ++ Text.ofNat n
    digits.length = places ∧ count digits = n ∧ digits ≠ [] ∧ ∀ d ∈ digits, Digit d := by
  have short := (length_ofNat_le positive).mpr fits
  refine ⟨?_, ?_, ?_, List.forall_mem_append.mpr ⟨zeros_digits _, ofNat_digits n⟩⟩
  · rw [List.length_append, List.length_replicate]
    omega
  · rw [count_append, count_zeros, count_ofNat, zero_mul, zero_add]
  · simp [ofNat_ne_nil]

theorem positional_worth (decimal : Decimal) : Worth decimal.positional (amount decimal) := by
  rw [amount_quotient, Decimal.denominator, Decimal.positional]
  dsimp only
  split
  · next placeless =>
    have worth := Worth.fraction (ofNat_ne_nil decimal.numerator) (ofNat_digits _)
      (by decide : ['0'] ≠ []) (List.forall_mem_singleton.mpr (by decide))
    have zero : count ['0'] = 0 := rfl
    rw [count_ofNat, zero, Nat.cast_zero, zero_div, add_zero] at worth
    rw [placeless, Nat.pow_zero, Nat.cast_one, div_one]
    exact worth
  · next positive =>
    have whole : decimal.numerator = decimal.coefficient := by
      rw [Decimal.numerator, Int.toNat_of_nonpos (by omega), Nat.pow_zero, Nat.mul_one]
    generalize (-decimal.exponent).toNat = places at positive ⊢
    have step : 0 < 10 ^ places := Nat.pow_pos (by decide)
    obtain ⟨length, counted, nonempty, all⟩ := padded (Nat.pos_of_ne_zero positive) (Nat.mod_lt decimal.coefficient step)
    have worth := Worth.fraction (ofNat_ne_nil (decimal.coefficient / 10 ^ places)) (ofNat_digits _) nonempty all
    have parts : (decimal.coefficient : ℚ) =
        10 ^ places * (decimal.coefficient / 10 ^ places : ℕ) + (decimal.coefficient % 10 ^ places : ℕ) := by
      exact_mod_cast (Nat.div_add_mod decimal.coefficient (10 ^ places)).symm
    have same : ((decimal.coefficient / 10 ^ places : ℕ) + (decimal.coefficient % 10 ^ places : ℕ) / 10 ^ places : ℚ) =
        decimal.numerator / (10 ^ places : ℕ) := by
      rw [whole, parts]
      push_cast
      field_simp
    rw [count_ofNat, counted, length, same] at worth
    exact worth

/-! ### Scientific notation -/

/-- Digits with a point after the first, if there are others. -/
theorem mantissa_worth {d : Char} {others : Text} (all : ∀ x ∈ d :: others, Digit x) :
    Worth ([d] ++ if others.isEmpty then [] else '.' :: others) (count (d :: others) / 10 ^ others.length) := by
  cases others with
  | nil =>
    have worth := Worth.whole (by simp : [d] ≠ []) all
    simpa using worth
  | cons e others =>
    obtain ⟨first, more⟩ := List.forall_mem_cons.mp all
    have worth := Worth.fraction (by simp : [d] ≠ []) (List.forall_mem_singleton.mpr first)
      (by simp : e :: others ≠ []) more
    have same : (count [d] + count (e :: others) / 10 ^ (e :: others).length : ℚ) =
        count (d :: e :: others) / 10 ^ (e :: others).length := by
      have joined := count_append [d] (e :: others)
      rw [List.singleton_append] at joined
      rw [joined]
      push_cast
      field_simp
    rw [same] at worth
    exact worth

/-- Scientific notation is a numeral with one digit before the point, a sign if it is needed, and the exponent of
    the leading digit. -/
theorem scientific_parts (decimal : Decimal) : ∃ mantissa q, Worth mantissa q ∧
    decimal.scientific = mantissa ++ 'e' :: ((if decimal.leading < 0 then ['-'] else []) ++
      Text.ofNat decimal.leading.natAbs) ∧
    amount decimal = q * 10 ^ decimal.leading ∧ (decimal.coefficient ≠ 0 → 1 ≤ q ∧ q < 10) := by
  obtain ⟨d, others, spelled⟩ := List.exists_cons_of_ne_nil (ofNat_ne_nil decimal.coefficient)
  have all := ofNat_digits decimal.coefficient
  have counted := count_ofNat decimal.coefficient
  have length : (Text.ofNat decimal.coefficient).length = others.length + 1 := by rw [spelled, List.length_cons]
  have leading : decimal.leading = decimal.exponent + others.length := by
    rw [Decimal.leading, length, Nat.add_sub_cancel]
  rw [spelled] at all counted
  have worth := mantissa_worth all
  rw [counted] at worth
  refine ⟨_, _, worth, ?_, ?_, fun nonzero => ⟨?_, ?_⟩⟩
  · rw [Decimal.scientific, spelled]
    rfl
  · rw [leading, amount, zpow_add₀ (by norm_num), zpow_natCast]
    field_simp
  · rw [le_div_iff₀ (by positivity), one_mul]
    by_contra small
    have fewer : decimal.coefficient < 10 ^ others.length := by exact_mod_cast not_le.mp small
    rcases Nat.eq_zero_or_pos others.length with alone | more
    · rw [alone, Nat.pow_zero] at fewer
      omega
    · have short := (length_ofNat_le more).mpr fewer
      omega
  · rw [div_lt_iff₀ (by positivity), ← pow_succ']
    have bound := (length_ofNat_le (Nat.succ_pos others.length)).mp length.le
    exact_mod_cast bound

/-- The leading digit stands behind the point exactly in what is less than one. -/
theorem leading_neg_iff (nonzero : decimal.coefficient ≠ 0) : decimal.leading < 0 ↔ amount decimal < 1 := by
  obtain ⟨mantissa, q, -, -, scaled, bounds⟩ := scientific_parts decimal
  obtain ⟨low, high⟩ := bounds nonzero
  rw [scaled]
  constructor
  · intro negative
    have small : (10 : ℚ) ^ decimal.leading ≤ 10 ^ (-1 : ℤ) := zpow_le_zpow_right₀ (by norm_num) (by omega)
    have tenth : (10 : ℚ) ^ (-1 : ℤ) = 1 / 10 := by norm_num
    have scaled := mul_le_mul_of_nonneg_left small (by linarith : 0 ≤ q)
    rw [tenth] at scaled
    linarith
  · intro less
    by_contra nonnegative
    have large : (1 : ℚ) ≤ 10 ^ decimal.leading := one_le_zpow₀ (by norm_num) (not_lt.mp nonnegative)
    have scaled := mul_le_mul low large (by norm_num) (by linarith)
    linarith

theorem scientific_written (decimal : Decimal) : Written decimal.scientific (amount decimal) := by
  obtain ⟨mantissa, q, worth, spelled, scaled, -⟩ := scientific_parts decimal
  have digits := ofNat_digits decimal.leading.natAbs
  have nonempty := ofNat_ne_nil decimal.leading.natAbs
  rw [spelled, scaled]
  by_cases negative : decimal.leading < 0
  · have written := Written.down worth nonempty digits
    have power : q * 10 ^ decimal.leading = q / 10 ^ decimal.leading.natAbs := by
      have exponent : decimal.leading = -decimal.leading.natAbs := by omega
      rw [exponent, zpow_neg, Int.natAbs_neg, Int.natAbs_natCast, zpow_natCast, div_eq_mul_inv]
    rw [count_ofNat, ← power] at written
    rw [if_pos negative]
    exact written
  · have written := Written.up worth nonempty digits
    have power : q * 10 ^ decimal.leading = q * 10 ^ decimal.leading.natAbs := by
      rw [← zpow_natCast, Int.natAbs_of_nonneg (not_lt.mp negative)]
    rw [count_ofNat, ← power] at written
    rw [if_neg negative]
    exact written

/-! ### Scans -/

/-- A text is found to be some kinds and lexemes with no error, wherever it stands. -/
def Finds (config : Config) (text : Text) (found : List (Kind × Text)) : Prop :=
  ∀ position, let scan := Scan.run config [] position text
    scan.error = none ∧ scan.tokens.map (fun token => (token.kind, token.lexeme)) = found

variable {config : Config} {kind : Kind} {lexeme : Text} {found : List (Kind × Text)}

theorem finds_nil (config : Config) : Finds config [] [] := by
  intro position
  rw [Scan.run_nil]
  exact ⟨rfl, rfl⟩

theorem finds_piece (piece : Piece config (some kind) lexeme rest) (behind : Finds config rest found) :
    Finds config (lexeme ++ rest) ((kind, lexeme) :: found) := by
  intro position
  obtain ⟨finished, later⟩ := behind (position.after lexeme)
  dsimp only
  rw [run_piece piece]
  refine ⟨finished, ?_⟩
  rw [List.map_append, later]
  rfl

private theorem numeral_piece (known : Numeral numeral) (stops : Stops Digit rest)
    (noPlaces : ∀ after, rest = '.' :: after → Stops Digit after) : Piece config (some .number) numeral rest := by
  cases known with
  | whole nonempty all => exact .whole nonempty all stops noPlaces
  | fraction nonempty all places others => exact .fraction nonempty all places others stops

/-- A numeral at the end of a text is one piece. -/
theorem last_numeral_piece (config : Config) (known : Numeral numeral) : Piece config (some .number) numeral [] :=
  numeral_piece known (stops_nil _) nofun

/-- A numeral by itself is one token. -/
theorem scan_numeral (known : Numeral numeral) : Scan.ofText config numeral =
    ⟨[Scan.tokenAt .start .number numeral], Position.start.after numeral, none⟩ := by
  have cut := run_piece (last_numeral_piece config known) .start
  rw [List.append_nil, Scan.run_nil] at cut
  exact cut

private theorem finds_numeral (known : Numeral numeral) : Finds config numeral [(.number, numeral)] := by
  have found := finds_piece (last_numeral_piece config known) (finds_nil config)
  rw [List.append_nil] at found
  exact found

/-- An `e` and digits are no reserved word. -/
theorem power_identifier (all : ∀ d ∈ digits, Digit d) : Kind.ofWord ('e' :: digits) = .identifier := by
  rw [ofWord_eq_identifier_iff]
  intro keyword same
  have letter : ∀ keyword : Keyword, keyword.word.head? = some 'e' → 'l' ∈ keyword.word.tail := by
    intro keyword
    cases keyword <;> decide
  have member := letter keyword (by rw [← same]; rfl)
  rw [← same] at member
  exact absurd (all 'l' member) (by decide)

private theorem power_piece (all : ∀ d ∈ digits, Digit d) (stops : Stops WordChar rest) :
    Piece config (some .identifier) ('e' :: digits) rest := by
  have word : Piece config (some (.ofWord ('e' :: digits))) ('e' :: digits) rest :=
    .word (by decide) (fun d member => .inr (all d member)) stops (fun _ same => absurd same (by decide))
  rw [power_identifier all] at word
  exact word

/-- An `e` ends a numeral. -/
theorem mantissa_piece (known : Numeral mantissa) : Piece config (some .number) mantissa ('e' :: rest) :=
  numeral_piece known (stops_cons.mpr (by decide)) nofun

/-- A power of ten becomes part of a name. -/
theorem finds_up (known : Numeral mantissa) (all : ∀ d ∈ digits, Digit d) :
    Finds config (mantissa ++ 'e' :: digits) [(.number, mantissa), (.identifier, 'e' :: digits)] := by
  have name := finds_piece (power_piece all (stops_nil _)) (finds_nil config)
  rw [List.append_nil] at name
  exact finds_piece (mantissa_piece known) name

/-- The sign of a power of ten ends the name, and its digits are a number. -/
theorem finds_down (known : Numeral mantissa) (nonempty : digits ≠ []) (all : ∀ d ∈ digits, Digit d) :
    Finds config (mantissa ++ 'e' :: '-' :: digits)
      [(.number, mantissa), (.identifier, ['e']), (.minus, ['-']), (.number, digits)] := by
  have minus : Finds config ('-' :: digits) [(.minus, ['-']), (.number, digits)] :=
    finds_piece (.punctuation digits rfl) (finds_numeral (.whole nonempty all))
  have name : Piece config (Option.some .identifier) ['e'] ('-' :: digits) :=
    power_piece nofun (stops_cons.mpr (by decide))
  exact finds_piece (mantissa_piece known) (finds_piece name minus)

theorem scientific_up (unsigned : ¬ decimal.leading < 0) : ∃ mantissa digits, Numeral mantissa ∧ digits ≠ [] ∧
    (∀ d ∈ digits, Digit d) ∧ decimal.scientific = mantissa ++ 'e' :: digits ∧
    ∀ config, Finds config decimal.scientific [(.number, mantissa), (.identifier, 'e' :: digits)] := by
  obtain ⟨mantissa, q, worth, spelled, -⟩ := scientific_parts decimal
  have digits := ofNat_digits decimal.leading.natAbs
  rw [if_neg unsigned, List.nil_append] at spelled
  refine ⟨mantissa, _, worth_numeral worth, ofNat_ne_nil _, digits, spelled, fun config => ?_⟩
  rw [spelled]
  exact finds_up (worth_numeral worth) digits

theorem scientific_down (signed : decimal.leading < 0) : ∃ mantissa digits, Numeral mantissa ∧ digits ≠ [] ∧
    (∀ d ∈ digits, Digit d) ∧ decimal.scientific = mantissa ++ 'e' :: '-' :: digits ∧
    ∀ config, Finds config decimal.scientific
      [(.number, mantissa), (.identifier, ['e']), (.minus, ['-']), (.number, digits)] := by
  obtain ⟨mantissa, q, worth, spelled, -⟩ := scientific_parts decimal
  have digits := ofNat_digits decimal.leading.natAbs
  rw [if_pos signed, List.singleton_append] at spelled
  refine ⟨mantissa, _, worth_numeral worth, ofNat_ne_nil _, digits, spelled, fun config => ?_⟩
  rw [spelled]
  exact finds_down (worth_numeral worth) (ofNat_ne_nil _) digits

end LoxLexer.Notation
