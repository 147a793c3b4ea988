/-!
# Finite binary floating point

A format has a number of significand bits and of exponent bits. Its finite magnitudes are counted
upwards from zero: the *rank* of a magnitude is its position in that order, and at the same time
its interchange encoding below the sign bit. All magnitudes are multiples of the smallest positive
one, so `Format.units` measures a rank exactly, in a natural number.
-/

namespace TextCommand.Number

-- powers are the core library's own, whatever else is imported
attribute [local instance (high)] instPowNat

structure Format where
  /-- significand bits, the leading one included -/
  precision : Nat
  exponentBits : Nat

namespace Format

def single : Format := ⟨24, 8⟩

def double : Format := ⟨53, 11⟩

variable (f : Format)

/-- How many magnitudes share an exponent. -/
def binade : Nat := 2 ^ (f.precision - 1)

/-- The smallest positive magnitude is two to the power of minus this. -/
def scale : Nat := 2 ^ (f.exponentBits - 1) + f.precision - 3

/-- The first rank that is no longer finite. -/
def infinity : Nat := (2 ^ f.exponentBits - 1) * f.binade

/-- The magnitude of a rank, in multiples of the smallest positive magnitude. Ranks below one
`binade` are subnormal. -/
def units (rank : Nat) : Nat :=
  if rank < f.binade then rank
  else (f.binade + rank % f.binade) * 2 ^ (rank / f.binade - 1)

end Format

/-- A finite number of a format; zero has two signs. -/
structure Binary (f : Format) where
  negative : Bool
  rank : Nat
  finite : rank < f.infinity
deriving DecidableEq

namespace Binary

/-- The interchange encoding: the sign bit above the rank. -/
def bits {f : Format} (x : Binary f) : Nat :=
  (if x.negative then 2 ^ (f.exponentBits + f.precision - 1) else 0) + x.rank

end Binary

abbrev Single := Binary Format.single

abbrev Double := Binary Format.double

def Double.zero : Double := ⟨false, 0, by decide⟩

instance : Inhabited Double := ⟨Double.zero⟩

end TextCommand.Number
