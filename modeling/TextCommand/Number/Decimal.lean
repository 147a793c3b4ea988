import TextCommand.Number.Binary
import TextCommand.Number.Integer

/-!
# Decimals as text and as binary numbers

The written form is an optional sign, digits, and optionally a point with at least one digit after
it; the digits before the point may be missing. Such a text is an exact fraction, and `nearest`
rounds that fraction once, to the nearest number of a format, a half going to the even rank.
-/

namespace TextCommand.Number

attribute [local instance (high)] instPowNat

/-- The number `± numeral / 10 ^ places`; the sign is kept apart because zero has two. -/
structure Decimal where
  negative : Bool
  numeral : Nat
  places : Nat
deriving DecidableEq, Repr

/-- The digits on both sides of the point, if the text is a decimal without sign. -/
def splitPoint (cs : List Char) : Option (List Char × List Char) :=
  let whole := cs.takeWhile Char.isDigit
  match cs.dropWhile Char.isDigit with
  | [] => if whole.isEmpty then none else some (whole, [])
  | '.' :: fraction =>
    if !fraction.isEmpty && fraction.all Char.isDigit then some (whole, fraction) else none
  | _ => none

def readDecimal? (s : String) : Option Decimal :=
  let (negative, cs) := splitSign s.toList
  (splitPoint cs).map fun (whole, fraction) =>
    ⟨negative, digitsValue (whole ++ fraction), fraction.length⟩

/-- The integer nearest to `num / den`, a half going to the even one. -/
def roundHalfEven (num den : Nat) : Nat :=
  let q := num / den
  let r := num % den
  if 2 * r < den then q
  else if den < 2 * r then q + 1
  else if q % 2 = 0 then q else q + 1

namespace Format

variable (f : Format)

/-- The rank nearest to `num / den`. The quotient is measured in the spacing of its own binade, so
one rounding of one integer division settles it; a carry into the next binade is the next rank. -/
def nearestRank (num den : Nat) : Nat :=
  let scaled := num * 2 ^ f.scale
  let shift := (scaled / den).log2 + 1 - f.precision
  shift * f.binade + roundHalfEven scaled (den * 2 ^ shift)

end Format

/-- The number of the format nearest to a decimal, unless it rounds beyond the finite ones. -/
def Decimal.nearest (f : Format) (d : Decimal) : Option (Binary f) :=
  let rank := f.nearestRank d.numeral (10 ^ d.places)
  if h : rank < f.infinity then some ⟨d.negative, rank, h⟩ else none

def readBinary? (f : Format) (s : String) : Option (Binary f) :=
  (readDecimal? s).bind (Decimal.nearest f)

end TextCommand.Number
