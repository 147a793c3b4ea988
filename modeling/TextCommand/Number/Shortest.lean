import TextCommand.Number.Binary

/-!
# The shortest decimal that reads back

Every decimal between the midpoints to the neighbouring ranks rounds to a number, the midpoints
themselves too if its rank is even. `shortest` looks for the coarsest power of ten that has a
multiple among them, and there takes the multiple nearest to the number. All is done on natural
numbers: a number of the format, halved and scaled by a power of ten, is a whole number.

The text is always positional: no exponent, and no point without a digit behind it.
-/

namespace TextCommand.Number

attribute [local instance (high)] instPowNat

/-- A closed or open range of naturals around a number. -/
structure Basin where
  low : Nat
  centre : Nat
  high : Nat
  closed : Bool

namespace Basin

def holds (b : Basin) (n : Nat) : Bool :=
  if b.closed then b.low ≤ n && n ≤ b.high else b.low < n && n < b.high

/-- The multiple of `step` in the basin that is nearest to the centre; of two equally near ones
the larger. -/
def multiple? (b : Basin) (step : Nat) : Option Nat :=
  let below := b.centre / step
  let up := b.holds ((below + 1) * step)
  if b.holds (below * step) then
    if up && step ≤ 2 * (b.centre % step) then some (below + 1) else some below
  else if up then some (below + 1) else none

/-- The coarsest power of ten, not above `10 ^ power`, with a multiple in the basin: that multiple
and the power. The centre itself is a multiple of one. -/
def coarsest (b : Basin) : Nat → Nat × Nat
  | 0 => (b.centre, 0)
  | power + 1 =>
    match b.multiple? (10 ^ (power + 1)) with
    | some n => (n, power + 1)
    | none => b.coarsest power

end Basin

namespace Format

/-- One half of the smallest magnitude is ten to the power of minus this, times a whole number. -/
def decimalPlaces (f : Format) : Nat := f.scale + 1

/-- The numbers that round to a rank, in units of `10 ^ -decimalPlaces`. -/
def basin (f : Format) (rank : Nat) : Basin :=
  let unit := 5 ^ f.decimalPlaces
  { low := (f.units (rank - 1) + f.units rank) * unit
    centre := 2 * f.units rank * unit
    high := (f.units rank + f.units (rank + 1)) * unit
    closed := rank % 2 = 0 }

/-- The shortest numeral for a positive rank and the power of ten it is to be multiplied by, counted
from `10 ^ -decimalPlaces`. -/
def shortest (f : Format) (rank : Nat) : Nat × Nat :=
  let b := f.basin rank
  b.coarsest (b.centre.log2 / 3 + 1)

end Format

/-- The digits of `numeral / 10 ^ places`, positionally. -/
def positional (numeral places : Nat) : List Char :=
  let digits := Nat.toDigits 10 numeral
  if places = 0 then digits
  else if places < digits.length then
    digits.take (digits.length - places) ++ '.' :: digits.drop (digits.length - places)
  else '0' :: '.' :: (List.replicate (places - digits.length) '0' ++ digits)

/-- The digits of a magnitude. -/
def magnitudeText (f : Format) (rank : Nat) : List Char :=
  if rank = 0 then ['0']
  else
    let (numeral, power) := f.shortest rank
    if f.decimalPlaces ≤ power then positional (numeral * 10 ^ (power - f.decimalPlaces)) 0
    else positional numeral (f.decimalPlaces - power)

/-- The shortest decimal that reads back as the number, the sign of zero included. -/
def Binary.toText {f : Format} (x : Binary f) : String :=
  String.ofList ((if x.negative then ['-'] else []) ++ magnitudeText f x.rank)

end TextCommand.Number
