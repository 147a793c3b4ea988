import TextCommand.Argument.Basic
import TextCommand.Reader.Scalar

/-!
# Reading arguments

Each kind reads one value; a list of kinds reads its values in order and stops at the first failure.
The list does not put the reader back: that is left to whoever tried the whole list.
-/

namespace TextCommand

/-- A reading of plain text as a step in reading a command. -/
def Reading.toValue {α : Type} (wrap : α → Value) (reading : Reading ReadError α) :
    Reading CommandError Value :=
  match reading with
  | ⟨.ok a, next⟩ => ⟨.ok (wrap a), next⟩
  | ⟨.error e, next⟩ => ⟨.error (.read e), next⟩

namespace Kind

def readGreedy (r : Reader) : Reading ReadError String :=
  if r.canRead then ⟨.ok (String.ofList r.rest), r.toEnd⟩ else r.fail .expectedString

def readMode (r : Reader) : Reading CommandError Value :=
  match r.readWord with
  | ⟨.error e, next⟩ => ⟨.error (.read e), next⟩
  | ⟨.ok word, next⟩ =>
    match Game.Mode.ofName? word with
    | some m => ⟨.ok (.mode m), next⟩
    | none => ⟨.error (.refused Kind.mode.name s!"Unknown game mode '{word}'" r.cursor), r⟩

def readMessy (r : Reader) : Reading CommandError Value :=
  match r.readWord with
  | ⟨.error e, next⟩ => ⟨.error (.read e), next⟩
  | ⟨.ok word, next⟩ =>
    if "bad".toList.isPrefixOf word.toList then
      ⟨.error (.refused Kind.messy.name s!"rejected '{word}'" next.cursor), next⟩
    else ⟨.ok (.text word), next⟩

/-- Reads one value. -/
def read : Kind → Reader → Reading CommandError Value
  | .bool, r => r.readBool.toValue .bool
  | .int, r => r.readInt.toValue .int
  | .long, r => r.readLong.toValue .long
  | .float, r => r.readFloat.toValue .float
  | .double, r => r.readDouble.toValue .double
  | .string, r => r.readString.toValue .text
  | .greedy, r => (readGreedy r).toValue .text
  | .mode, r => readMode r
  | .messy, r => readMessy r

/-- Reads one value after the other. -/
def readAll : List Kind → Reader → Reading CommandError (List Value)
  | [], r => ⟨.ok [], r⟩
  | kind :: kinds, r =>
    match kind.read r with
    | ⟨.error e, next⟩ => ⟨.error e, next⟩
    | ⟨.ok value, next⟩ =>
      match readAll kinds next with
      | ⟨.error e, last⟩ => ⟨.error e, last⟩
      | ⟨.ok values, last⟩ => ⟨.ok (value :: values), last⟩

end Kind

end TextCommand
