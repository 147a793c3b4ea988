/-!
# Integers as text

The written form is an optional sign and one or more ASCII digits, leading zeros included. The
value is exact; a fixed width is checked afterwards, so no text is ever read as another number.
-/

namespace TextCommand.Number

/-- The digits' value in base ten, most significant first. -/
def digitsValue (digits : List Char) : Nat :=
  digits.foldl (fun n c => 10 * n + (c.toNat - '0'.toNat)) 0

/-- Splits a leading sign off; the flag is set for a minus. -/
def splitSign : List Char → Bool × List Char
  | '-' :: cs => (true, cs)
  | '+' :: cs => (false, cs)
  | cs => (false, cs)

/-- A negative magnitude if the flag is set. -/
def signed (negative : Bool) (magnitude : Nat) : Int :=
  if negative then -magnitude else magnitude

def readInteger? (s : String) : Option Int :=
  let (negative, digits) := splitSign s.toList
  if !digits.isEmpty && digits.all Char.isDigit then some (signed negative (digitsValue digits))
  else none

def readInt32? (s : String) : Option Int32 :=
  (readInteger? s).bind fun n =>
    if Int32.minValue.toInt ≤ n ∧ n ≤ Int32.maxValue.toInt then some (Int32.ofInt n) else none

def readInt64? (s : String) : Option Int64 :=
  (readInteger? s).bind fun n =>
    if Int64.minValue.toInt ≤ n ∧ n ≤ Int64.maxValue.toInt then some (Int64.ofInt n) else none

/-- Addition that stops at the ends of the range. -/
def clampedAdd (a b : Int32) : Int32 :=
  Int32.ofInt (max Int32.minValue.toInt (min Int32.maxValue.toInt (a.toInt + b.toInt)))

end TextCommand.Number
