import LoxLexer.Rounding

/-!
Binary64 numbers written with the fewest digits that read back as the same number. Of the decimals
with that many digits the nearest is taken, and of two equally near the larger. The text is
positional from `10 ^ -4` up to but excluding `10 ^ 16`, and for zero; elsewhere it is scientific.
-/

namespace LoxLexer.Binary64

-- Powers here are the core library's, whatever else a reader has in scope.
attribute [local instance(high)] instPowNat

/-- A decimal reads back as a magnitude when the magnitude is the nearest to it. -/
def ReadsBack (magnitude : Nat) (decimal : Decimal) : Prop := (nearest decimal).magnitude = magnitude

instance (magnitude : Nat) (decimal : Decimal) : Decidable (ReadsBack magnitude decimal) :=
  inferInstanceAs (Decidable (_ = _))

/-- A finite magnitude as a count of `10 ^ -1074`; this loses nothing, since `2 ^ -1074` is
    `5 ^ 1074` of them. -/
def scaled (magnitude : Nat) : Nat := units magnitude * 5 ^ (1074 : Nat)

/-- The first decimal that reads back among the two neighbours of the value on the grid of
    `10 ^ (place - 1074)`, on grids from `place` down. On the finest grid the value itself stands. -/
def shortestFrom (magnitude : Nat) : Nat → Decimal
  | 0 => ⟨scaled magnitude, -1074⟩
  | place + 1 =>
    let step := 10 ^ (place + 1)
    let exponent : Int := (place + 1 : Nat) - 1074
    let below : Decimal := ⟨scaled magnitude / step, exponent⟩
    let above : Decimal := ⟨scaled magnitude / step + 1, exponent⟩
    if ReadsBack magnitude below then
      if ReadsBack magnitude above ∧ step ≤ 2 * (scaled magnitude % step) then above else below
    else if ReadsBack magnitude above then above
    else shortestFrom magnitude place

/-- The decimal with the fewest digits that reads back as a finite magnitude. The search starts above
    the leading digit, as `2 ^ 93 < 10 ^ 28`. -/
def shortest (magnitude : Nat) : Decimal :=
  if magnitude = 0 then ⟨0, 0⟩
  else shortestFrom magnitude (((scaled magnitude).log2 + 1) * 28 / 93 + 1)

/-- The magnitude of `0.0001`, from which on numbers are written positionally. -/
def leastPositional : Nat := (nearest ⟨1, -4⟩).magnitude

/-- The magnitude of `10 ^ 16`, from which on numbers are written scientifically. -/
def leastScientific : Nat := (nearest ⟨1, 16⟩).magnitude

/-- The text of a number without its sign. -/
def magnitudeText (magnitude : Nat) : Text :=
  if magnitude = infinite then ['i', 'n', 'f']
  else if magnitude = 0 ∨ leastPositional ≤ magnitude ∧ magnitude < leastScientific then
    (shortest magnitude).positional
  else (shortest magnitude).scientific

/-- The text of a number; a not-a-number has no sign. -/
def text (x : Binary64) : Text :=
  if x.isNaN then ['N', 'a', 'N']
  else (if x.negative then ['-'] else []) ++ magnitudeText x.magnitude

end LoxLexer.Binary64
