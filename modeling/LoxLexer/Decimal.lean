import LoxLexer.Text

/-!
Decimal numbers: what a numeral writes, and the two ways a decimal is written out. Positional
notation always has a point with a digit on either side; scientific notation has a point only after
the first of several digits.
-/

namespace LoxLexer

-- Powers here are the core library's, whatever else a reader has in scope.
attribute [local instance(high)] instPowNat

/-- The number `coefficient * 10 ^ exponent`. -/
structure Decimal where
  coefficient : Nat
  exponent : Int
deriving DecidableEq

namespace Decimal

/-- The number that a numeral writes: its digits without the point, scaled by the digits after it. -/
def ofNumeral (numeral : Text) : Decimal :=
  let whole := numeral.takeWhile (· ≠ '.')
  let fraction := (numeral.dropWhile (· ≠ '.')).drop 1
  ⟨Nat.ofDigitChars 10 (whole ++ fraction) 0, -fraction.length⟩

/-- The numerator of the number as a fraction whose denominator is a power of ten. -/
def numerator (decimal : Decimal) : Nat := decimal.coefficient * 10 ^ decimal.exponent.toNat

/-- The denominator: a power of ten, `1` unless the exponent is negative. -/
def denominator (decimal : Decimal) : Nat := 10 ^ (-decimal.exponent).toNat

/-- Digits with a point in their place: `120.0`, `0.5`, `0.0001`. -/
def positional (decimal : Decimal) : Text :=
  let places := (-decimal.exponent).toNat
  if places = 0 then Text.ofNat decimal.numerator ++ ['.', '0']
  else
    let fraction := Text.ofNat (decimal.coefficient % 10 ^ places)
    Text.ofNat (decimal.coefficient / 10 ^ places) ++
      '.' :: (List.replicate (places - fraction.length) '0' ++ fraction)

/-- The exponent of the leading digit. -/
def leading (decimal : Decimal) : Int :=
  decimal.exponent + ((Text.ofNat decimal.coefficient).length - 1 : Nat)

/-- The first digit, the others behind a point if there are any, and the exponent of the first. -/
def scientific (decimal : Decimal) : Text :=
  let digits := Text.ofNat decimal.coefficient
  let others := digits.drop 1
  let mantissa := digits.take 1 ++ if others.isEmpty then [] else '.' :: others
  let sign := if decimal.leading < 0 then ['-'] else []
  mantissa ++ 'e' :: (sign ++ Text.ofNat decimal.leading.natAbs)

end Decimal
end LoxLexer
