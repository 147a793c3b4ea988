import TextCommand.Error

/-!
# What a console shows

Verbosity, the pieces of output that a console emits, and the layout of errors and lists. A quiet
console shows errors and nothing else.
-/

namespace TextCommand.Console

inductive Verbosity where
  | quiet | normal | debug
deriving DecidableEq, Repr

namespace Verbosity

/-- Quietness wins. -/
def ofFlags (quiet debug : Bool) : Verbosity :=
  if quiet then .quiet else if debug then .debug else .normal

def name : Verbosity → String
  | .quiet => "Quiet"
  | .normal => "Normal"
  | .debug => "Debug"

end Verbosity

inductive Emission where
  | line (text : String)
  | prompt (text : String)
  | warning (text : String)
  | error (text : String)
deriving DecidableEq, Repr

namespace Emission

/-- The part that goes to the standard output. -/
def standard : Emission → String
  | .line text => text ++ "\n"
  | .prompt text => text
  | .warning _ | .error _ => ""

/-- The part that goes to the error output. -/
def diagnostic : Emission → String
  | .line _ | .prompt _ => ""
  | .warning text => s!"warning: {text}\n"
  | .error text => s!"error: {text}\n"

end Emission

/-- Emits nothing on a quiet console. -/
def unlessQuiet (verbosity : Verbosity) (emission : Emission) : List Emission :=
  if verbosity = .quiet then [] else [emission]

/-- One item a line, each behind an indentation. -/
def formatList (items : List String) (indent : String) : String :=
  "\n".intercalate (items.map (indent ++ ·))

/-- How many characters stand in front of a position; all of them, if the position is none between
two characters of the text. -/
def column (cursor : Nat) (cs : List Char) : Nat :=
  let front := (splitAtByte cursor cs).1
  if byteLength front = cursor then front.length else cs.length

/-- The error's message and, if it is about a position, the input with a caret under that position. -/
def formatError (e : CommandError) (input : String) : String :=
  match e.cursor? with
  | none => e.message
  | some cursor =>
    let indent := String.ofList (List.replicate (column cursor input.toList) ' ')
    s!"{e.message}\n{input}\n{indent}^"

end TextCommand.Console
