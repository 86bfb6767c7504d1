import LoxLexer.Binary64
import LoxLexer.Decimal

/-!
The binary64 number nearest to a decimal. A quotient is scaled to units of `2 ^ -1074`, cut to at
most 53 bits and rounded once, so a half goes to the even neighbour at every scale, small numbers
lose precision step by step and large ones become infinite.
-/

namespace LoxLexer

-- Powers here are the core library's, whatever else a reader has in scope.
attribute [local instance(high)] instPowNat

/-- The whole number nearest to a quotient; of two equally near, the even one. -/
def roundHalfEven (numerator denominator : Nat) : Nat :=
  let quotient := numerator / denominator
  let twice := 2 * (numerator % denominator)
  if twice < denominator ∨ twice = denominator ∧ quotient % 2 = 0 then quotient else quotient + 1

namespace Binary64

/-- The magnitude nearest to a quotient. `dropped` low bits do not fit into 53; a carry out of the
    kept bits moves on to the next exponent by itself. -/
def nearestMagnitude (numerator denominator : Nat) : Nat :=
  let scaled := numerator * 2 ^ (1074 : Nat)
  let dropped := (scaled / denominator).log2 - 52
  min infinite (dropped * 2 ^ (52 : Nat) + roundHalfEven scaled (denominator * 2 ^ dropped))

theorem nearestMagnitude_lt (numerator denominator : Nat) :
    nearestMagnitude numerator denominator < 2 ^ (63 : Nat) :=
  Nat.lt_of_le_of_lt (Nat.min_le_left _ _) (by decide)

/-- The nonnegative number nearest to a decimal. -/
def nearest (decimal : Decimal) : Binary64 where
  negative := false
  magnitude := nearestMagnitude decimal.numerator decimal.denominator
  magnitude_lt := nearestMagnitude_lt _ _

/-- The number that a numeral stands for. -/
def ofNumeral (numeral : Text) : Binary64 := nearest (Decimal.ofNumeral numeral)

end Binary64
end LoxLexer
