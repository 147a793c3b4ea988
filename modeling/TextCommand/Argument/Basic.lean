import TextCommand.Error
import TextCommand.Number.Shortest

/-!
# Arguments

An `Argument` describes one slot of a command to people. A `Kind` says how the slot's text is read
and which values come out of it.
-/

namespace TextCommand

structure Argument where
  name : String
  description : String
  required : Bool
  /-- the name of the kind that reads the slot; empty until the argument is given to a command -/
  kind : String
deriving DecidableEq, Repr

namespace Argument

/-- A required argument. -/
def new (name description : String) : Argument := ⟨name, description, true, ""⟩

def optional (a : Argument) : Argument := { a with required := false }

def usage (a : Argument) : String := if a.required then s!"<{a.name}>" else s!"[{a.name}]"

def inspect (a : Argument) : String :=
  Text.inspectRecord "Argument"
    [("name", Text.inspect a.name), ("description", Text.inspect a.description),
     ("required", Text.inspectBool a.required), ("kind", Text.inspect a.kind)]

end Argument

inductive Kind where
  | bool | int | long | float | double
  /-- a word or a quoted string -/
  | string
  /-- everything that is left -/
  | greedy
  /-- the name of a game mode -/
  | mode
  /-- a word that must not start with "bad"; the reader is left behind a word that is refused -/
  | messy
deriving DecidableEq, Repr

def Kind.name : Kind → String
  | .bool => "bool"
  | .int => "int"
  | .long => "long"
  | .float => "float"
  | .double => "double"
  | .string => "string"
  | .greedy => "greedy string"
  | .mode => "game mode"
  | .messy => "messy"

inductive Value where
  | bool (b : Bool)
  | int (n : Int32)
  | long (n : Int64)
  | float (x : Number.Single)
  | double (x : Number.Double)
  | text (s : String)
  | mode (m : Game.Mode)
deriving DecidableEq

end TextCommand
