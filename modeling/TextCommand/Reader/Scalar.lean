import TextCommand.Reader.Word
import TextCommand.Number.Decimal

/-!
# Truth values and numbers

A scalar is one word that a decoder accepts as a whole. There is no partial reading: a word that the
decoder refuses is reported in full.
-/

namespace TextCommand

def decodeBool? : String → Option Bool
  | "true" | "1" => some true
  | "false" | "0" => some false
  | _ => none

namespace Reader

/-- Reads a word and decodes it. -/
def readScalar {α : Type} (scalar : Scalar) (decode : String → Option α) (r : Reader) :
    Reading ReadError α :=
  match r.readWord with
  | ⟨.error _, _⟩ => r.fail (.expectedScalar scalar)
  | ⟨.ok word, next⟩ =>
    match decode word with
    | some value => ⟨.ok value, next⟩
    | none => r.fail (.invalidScalar scalar word)

def readBool (r : Reader) : Reading ReadError Bool := r.readScalar .bool decodeBool?

def readInt (r : Reader) : Reading ReadError Int32 := r.readScalar .int Number.readInt32?

def readLong (r : Reader) : Reading ReadError Int64 := r.readScalar .long Number.readInt64?

def readFloat (r : Reader) : Reading ReadError Number.Single :=
  r.readScalar .float (Number.readBinary? .single)

def readDouble (r : Reader) : Reading ReadError Number.Double :=
  r.readScalar .double (Number.readBinary? .double)

end Reader

end TextCommand
