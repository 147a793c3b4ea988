import TextCommand.Text.Blank

/-!
# A text and a position in it

A `Reader` holds the characters already passed and those still to come. Positions are counted in
UTF-8 bytes, but a reader stands between two characters by construction: no position inside a
character can be expressed, and the text is what was passed followed by what is left.
-/

namespace TextCommand

/-- How many bytes the characters take in UTF-8. -/
def byteLength : List Char → Nat
  | [] => 0
  | c :: cs => c.utf8Size + byteLength cs

@[simp] theorem byteLength_nil : byteLength [] = 0 := rfl

@[simp] theorem byteLength_cons (c : Char) (cs : List Char) :
    byteLength (c :: cs) = c.utf8Size + byteLength cs := rfl

@[simp] theorem byteLength_append (as bs : List Char) :
    byteLength (as ++ bs) = byteLength as + byteLength bs := by
  induction as with
  | nil => simp
  | cons a as ih => rw [List.cons_append, byteLength_cons, byteLength_cons, ih, Nat.add_assoc]

/-- Splits before the last character boundary that is at most `n` bytes in. -/
def splitAtByte : Nat → List Char → List Char × List Char
  | _, [] => ([], [])
  | n, c :: cs =>
    if c.utf8Size ≤ n then
      let (front, back) := splitAtByte (n - c.utf8Size) cs
      (c :: front, back)
    else ([], c :: cs)

theorem splitAtByte_append (n : Nat) (cs : List Char) :
    (splitAtByte n cs).1 ++ (splitAtByte n cs).2 = cs := by
  induction cs generalizing n with
  | nil => rfl
  | cons c cs ih =>
    simp only [splitAtByte]
    split
    · simp [ih]
    · rfl

structure Reader where
  passed : List Char
  rest : List Char
deriving DecidableEq, Repr

namespace Reader

/-- A reader at the start of a text. -/
def ofString (s : String) : Reader := ⟨[], s.toList⟩

/-- All characters, passed or not. -/
def chars (r : Reader) : List Char := r.passed ++ r.rest

/-- The position, in bytes from the start. -/
def cursor (r : Reader) : Nat := byteLength r.passed

def totalLength (r : Reader) : Nat := byteLength r.chars

def remainingLength (r : Reader) : Nat := byteLength r.rest

/-- The same text at the last character boundary that is at most `n` bytes in. -/
def moveTo (n : Nat) (r : Reader) : Reader :=
  let (front, back) := splitAtByte n r.chars
  ⟨front, back⟩

/-- A reader in a text at the last character boundary that is at most `n` bytes in. -/
def atByte (n : Nat) (s : String) : Reader := (ofString s).moveTo n

@[simp] theorem chars_moveTo (n : Nat) (r : Reader) : (r.moveTo n).chars = r.chars :=
  splitAtByte_append n r.chars

theorem cursor_add_remainingLength (r : Reader) :
    r.cursor + r.remainingLength = r.totalLength := by
  simp [cursor, remainingLength, totalLength, chars]

/-! ### Looking ahead -/

def canRead (r : Reader) : Bool := !r.rest.isEmpty

/-- At least `n` characters are left. -/
def canReadMany (n : Nat) (r : Reader) : Bool := n ≤ r.rest.length

def peek (r : Reader) : Option Char := r.rest.head?

/-! ### Moving on -/

/-- Passes the next `n` characters, or all if fewer are left. -/
def advance (n : Nat) (r : Reader) : Reader := ⟨r.passed ++ r.rest.take n, r.rest.drop n⟩

@[simp] theorem chars_advance (n : Nat) (r : Reader) : (r.advance n).chars = r.chars := by
  simp [advance, chars]

def skip (r : Reader) : Reader := r.advance 1

/-- Passes the longest run of characters with a property. -/
def skipWhile (p : Char → Bool) (r : Reader) : Reader := r.advance (r.rest.takeWhile p).length

def skipBlank (r : Reader) : Reader := r.skipWhile Text.isBlank

/-- Passes everything. -/
def toEnd (r : Reader) : Reader := ⟨r.chars, []⟩

end Reader

/-- What a reading step answers, and the reader that it leaves. -/
structure Reading (ε α : Type) where
  answer : Except ε α
  reader : Reader

end TextCommand
