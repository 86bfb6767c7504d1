import LoxLexer.Text

/-!
IEEE 754 binary64 numbers as their bits: a sign and the other 63 bits read as one number. Numbers of
one sign are ordered as their magnitudes, zero first and infinity last, and a finite number is a
whole count of units of `2 ^ -1074`.
-/

namespace LoxLexer

-- Powers here are the core library's, whatever else a reader has in scope.
attribute [local instance(high)] instPowNat

/-- A binary64 number: its sign and its exponent and fraction bits. -/
structure Binary64 where
  negative : Bool
  magnitude : Nat
  magnitude_lt : magnitude < 2 ^ (63 : Nat)
deriving DecidableEq

namespace Binary64

/-- The magnitude of infinity; every finite magnitude is below it and every magnitude of a
    not-a-number above it. -/
def infinite : Nat := 2047 * 2 ^ (52 : Nat)

/-- The number whose bits are those of `bits`, the sign highest; bits above the lowest 64 are ignored. -/
def ofBits (bits : Nat) : Binary64 where
  negative := bits / 2 ^ (63 : Nat) % 2 = 1
  magnitude := bits % 2 ^ (63 : Nat)
  magnitude_lt := Nat.mod_lt _ (by decide)

/-- The 64 bits as one number. -/
def bits (x : Binary64) : Nat := (if x.negative then 2 ^ (63 : Nat) else 0) + x.magnitude

def isNaN (x : Binary64) : Bool := infinite < x.magnitude

/-- The magnitude of a finite number in units of `2 ^ -1074`: the fraction, with a leading one above
    it unless the exponent bits are zero, shifted by the exponent. -/
def units (magnitude : Nat) : Nat :=
  if magnitude < 2 ^ (52 : Nat) then magnitude
  else (2 ^ (52 : Nat) + magnitude % 2 ^ (52 : Nat)) * 2 ^ (magnitude / 2 ^ (52 : Nat) - 1)

/-- Equality of numbers: the two zeros are equal, and a not-a-number equals nothing. -/
def equal (x y : Binary64) : Bool :=
  !x.isNaN && !y.isNaN && (x.magnitude = y.magnitude && (x.negative = y.negative || x.magnitude = 0))

end Binary64
end LoxLexer
