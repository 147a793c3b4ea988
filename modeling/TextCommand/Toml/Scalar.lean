import TextCommand.Number.Decimal
import TextCommand.Toml.Table
import TextCommand.Toml.Text

/-!
# Numbers, truth values, dates and times of TOML

A scalar is written in one run of letters, digits, signs, points and colons, except that a date and
a time may have a space between them.
-/

namespace TextCommand.Toml

attribute [local instance (high)] instPowNat

/-- Digits without the underscores between them, each of which stands between two digits. -/
def ungroup (isDigit : Char → Bool) : List Char → Option (List Char)
  | [] => none
  | [c] => if isDigit c then some [c] else none
  | c :: '_' :: cs => if isDigit c then (ungroup isDigit cs).map (c :: ·) else none
  | c :: cs => if isDigit c then (ungroup isDigit cs).map (c :: ·) else none

/-- Decimal digits without a needless leading zero. -/
def decimalDigits? (cs : List Char) : Option (List Char) :=
  (ungroup Char.isDigit cs).bind fun digits =>
    if digits.head? = some '0' && 1 < digits.length then none else some digits

/-- The value of digits in a base up to sixteen. -/
def radixValue? (base : Nat) (cs : List Char) : Option Nat := do
  let digits ← ungroup (fun c => (hexDigit? c).any (· < base)) cs
  some (digits.foldl (fun value c => base * value + (hexDigit? c).getD 0) 0)

def integer? (cs : List Char) : Option Int :=
  let read : Option Int :=
    match cs with
    | '0' :: 'x' :: cs => (radixValue? 16 cs).map Int.ofNat
    | '0' :: 'o' :: cs => (radixValue? 8 cs).map Int.ofNat
    | '0' :: 'b' :: cs => (radixValue? 2 cs).map Int.ofNat
    | cs =>
      let (negative, cs) := Number.splitSign cs
      (decimalDigits? cs).map fun digits => Number.signed negative (Number.digitsValue digits)
  read.bind fun n =>
    if Int64.minValue.toInt ≤ n ∧ n ≤ Int64.maxValue.toInt then some n else none

def isExponent : List Char → Bool
  | 'e' :: cs | 'E' :: cs => (ungroup Char.isDigit (Number.splitSign cs).2).isSome
  | _ => false

def isFloat (cs : List Char) : Bool :=
  let (_, cs) := Number.splitSign cs
  if cs = ['i', 'n', 'f'] || cs = ['n', 'a', 'n'] then true
  else
    let inGroup := fun c : Char => c.isDigit || c == '_'
    (decimalDigits? (cs.takeWhile inGroup)).isSome &&
      match cs.dropWhile inGroup with
      | '.' :: rest =>
        (ungroup Char.isDigit (rest.takeWhile inGroup)).isSome &&
          (rest.dropWhile inGroup == [] || isExponent (rest.dropWhile inGroup))
      | rest => isExponent rest

/-- The significant digits of a floating point number, without the zeros in front of them, and the
power of ten that belongs to the last one. -/
def floatDigits (cs : List Char) : List Char × Int :=
  let (_, cs) := Number.splitSign (cs.filter (· ≠ '_'))
  let rest := cs.dropWhile Char.isDigit
  let fraction :=
    match rest with
    | '.' :: rest => rest.takeWhile Char.isDigit
    | _ => []
  let exponent :=
    match rest.dropWhile fun c => c == '.' || c.isDigit with
    | 'e' :: cs | 'E' :: cs =>
      let (negative, digits) := Number.splitSign cs
      Number.signed negative (Number.digitsValue digits)
    | _ => 0
  ((cs.takeWhile Char.isDigit ++ fraction).dropWhile (· == '0'), exponent - fraction.length)

/-- A floating point number without a minus sign rounds to infinity, which may only be written as a
word. The greatest finite double has 309 digits in front of its point: fewer are always in range, more
never are, and so no power of ten is taken that the text does not bound. -/
def isTooLarge (cs : List Char) : Bool :=
  let (digits, exponent) := floatDigits cs
  let places := digits.length + exponent
  if cs.head? = some '-' || digits.isEmpty || places < 309 then false
  else if 309 < places then true
  else
    Number.Format.double.infinity ≤
      Number.Format.double.nearestRank (Number.digitsValue digits * 10 ^ exponent.toNat)
        (10 ^ (-exponent).toNat)

/-! ### Dates and times -/

/-- The value of exactly `n` digits, and what follows them. -/
def digits? (n : Nat) (cs : List Char) : Option (Nat × List Char) :=
  if (cs.take n).length = n && (cs.take n).all Char.isDigit then
    some (Number.digitsValue (cs.take n), cs.drop n)
  else none

def daysInMonth (year month : Nat) : Nat :=
  if month = 2 then if year % 4 = 0 && (year % 100 != 0 || year % 400 = 0) then 29 else 28
  else if month = 4 || month = 6 || month = 9 || month = 11 then 30
  else 31

/-- What follows a date. -/
def afterDate? (cs : List Char) : Option (List Char) := do
  let (year, cs) ← digits? 4 cs
  let cs ← if cs.head? = some '-' then some (cs.drop 1) else none
  let (month, cs) ← digits? 2 cs
  let cs ← if cs.head? = some '-' then some (cs.drop 1) else none
  let (day, cs) ← digits? 2 cs
  if 1 ≤ month && month ≤ 12 && 1 ≤ day && day ≤ daysInMonth year month then some cs else none

/-- What follows hours and minutes. -/
def afterMinutes? (cs : List Char) : Option (List Char) := do
  let (hour, cs) ← digits? 2 cs
  let cs ← if cs.head? = some ':' then some (cs.drop 1) else none
  let (minute, cs) ← digits? 2 cs
  if hour ≤ 23 && minute ≤ 59 then some cs else none

/-- What follows a time of day. -/
def afterTime? (cs : List Char) : Option (List Char) := do
  let cs ← afterMinutes? cs
  let cs ← if cs.head? = some ':' then some (cs.drop 1) else none
  let (second, cs) ← digits? 2 cs
  if 60 < second then none
  else
    match cs with
    | '.' :: rest =>
      if (rest.takeWhile Char.isDigit).isEmpty then none else some (rest.dropWhile Char.isDigit)
    | cs => some cs

/-- The offset of a time zone, or nothing. -/
def isOffset : List Char → Bool
  | [] | ['Z'] | ['z'] => true
  | '+' :: cs | '-' :: cs => afterMinutes? cs == some []
  | _ => false

def isMoment (cs : List Char) : Bool :=
  match afterDate? cs with
  | some [] => true
  | some (c :: rest) => (c == 'T' || c == 't' || c == ' ') && (afterTime? rest).any isOffset
  | none => afterTime? cs == some []

/-! ### Scalars -/

def isScalarChar (c : Char) : Bool :=
  c.isAlphanum || c == '_' || c == '+' || c == '-' || c == '.' || c == ':'

/-- The run of a scalar and what follows it; behind a date, a space and a time still belong to it. -/
def scalarRun (cs : List Char) : List Char × List Char :=
  let run := cs.takeWhile isScalarChar
  match cs.dropWhile isScalarChar with
  | ' ' :: rest =>
    if afterDate? run == some [] && rest.head?.any Char.isDigit then
      (run ++ ' ' :: rest.takeWhile isScalarChar, rest.dropWhile isScalarChar)
    else (run, ' ' :: rest)
  | rest => (run, rest)

def scalar? (cs : List Char) : Option (Value × List Char) :=
  let (run, rest) := scalarRun cs
  if run = "true".toList then some (.boolean true, rest)
  else if run = "false".toList then some (.boolean false, rest)
  else
    match integer? run with
    | some n => some (.integer n, rest)
    | none =>
      if isFloat run then
        if isTooLarge run then none else some (.float (String.ofList run), rest)
      else if isMoment run then some (.moment (String.ofList run), rest)
      else none

end TextCommand.Toml
