import TextCommand.Reader.Basic

/-!
# Why a piece of text cannot be read

Each fault names what was looked for and not found, or the word that does not fit. It is reported
with the position at which the failing read began.
-/

namespace TextCommand

/-- The values that are written as one bare word. -/
inductive Scalar where
  | bool | int | long | float | double
deriving DecidableEq, Repr

def Scalar.name : Scalar → String
  | .bool => "bool"
  | .int => "int"
  | .long => "long"
  | .float => "float"
  | .double => "double"

inductive ReadFault where
  | expectedString
  | expectedQuote
  | unclosedQuote (quote : Char)
  | unfinishedEscape
  | expectedScalar (scalar : Scalar)
  | invalidScalar (scalar : Scalar) (word : String)
  | peekBeyondEnd (offset : Nat)
deriving DecidableEq, Repr

def ReadFault.message : ReadFault → String
  | .expectedString => "Expected string"
  | .expectedQuote => "Expected quote"
  | .unclosedQuote quote => s!"Expected quote '{quote}' to end string"
  | .unfinishedEscape => "Expected character after escape"
  | .expectedScalar scalar => s!"Expected {scalar.name}"
  | .invalidScalar scalar word => s!"Invalid {scalar.name} '{word}'"
  | .peekBeyondEnd offset => s!"Cannot peek {offset} characters past the cursor"

structure ReadError where
  fault : ReadFault
  cursor : Nat
deriving DecidableEq, Repr

def ReadError.message (e : ReadError) : String := s!"{e.fault.message} at position {e.cursor}"

namespace Reader

/-- A read that failed here and moved nothing. -/
def fail {α : Type} (r : Reader) (fault : ReadFault) : Reading ReadError α :=
  ⟨.error ⟨fault, r.cursor⟩, r⟩

/-- The character `n` places ahead; `0` is the next one. -/
def peekAt (n : Nat) (r : Reader) : Except ReadError Char :=
  match r.rest[n]? with
  | some c => .ok c
  | none => .error ⟨.peekBeyondEnd n, r.cursor⟩

end Reader

end TextCommand
