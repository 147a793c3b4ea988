import TextCommand.Reader.Error
import TextCommand.Source

/-!
# Why a command does not run

Errors of a traversal, and the failures that a command's action raises. An action may raise an error
of a traversal itself, a failed read, a source of the wrong type or a plain message, under any number
of contexts; `Raised.surface` is what its caller gets to see.
-/

namespace TextCommand

inductive CommandError where
  | read (error : ReadError)
  /-- the input does not fit the tree -/
  | shape (text : String) (cursor : Nat)
  /-- a parser refuses a value that it could read -/
  | refused (parser text : String) (cursor : Nat)
  | mismatch (fault : TypeMismatch)
  | unknownCommand (literal : String) (cursor : Nat)
  | tooLong (length limit : Nat)
  /-- a command's action failed -/
  | action (text : String)
deriving DecidableEq, Repr

namespace CommandError

def message : CommandError → String
  | .read error => error.message
  | .shape text cursor => s!"{text} at position {cursor}"
  | .refused parser text cursor => s!"{parser}: {text} at position {cursor}"
  | .mismatch fault => fault.message
  | .unknownCommand literal cursor => s!"Unknown command '{literal}' at position {cursor}"
  | .tooLong length limit => s!"input is {length} characters long, the limit is {limit}"
  | .action text => text

/-- The position that the error is about, if it is about one. -/
def cursor? : CommandError → Option Nat
  | .read error => some error.cursor
  | .shape _ cursor | .refused _ _ cursor | .unknownCommand _ cursor => some cursor
  | .mismatch _ | .tooLong _ _ | .action _ => none

/-- The text itself is at fault: it cannot be read, or does not fit the tree. -/
def isMalformed : CommandError → Bool
  | .read _ | .shape _ _ => true
  | _ => false

end CommandError

/-- What is at the root of an action's failure. -/
inductive Cause where
  | command (error : CommandError)
  | read (error : ReadError)
  | mismatch (fault : TypeMismatch)
  | message (text : String)
deriving DecidableEq, Repr

def Cause.text : Cause → String
  | .command error => error.message
  | .read error => error.message
  | .mismatch fault => fault.message
  | .message text => text

/-- A failure of an action: its cause and the contexts attached to it, the innermost first. -/
structure Raised where
  cause : Cause
  contexts : List String
deriving DecidableEq, Repr

namespace Raised

def of (cause : Cause) : Raised := ⟨cause, []⟩

/-- A failure that is nothing but a message. -/
def plain (text : String) : Raised := of (.message text)

/-- Attaches a further context, which becomes the outermost. -/
def inContext (context : String) (raised : Raised) : Raised :=
  { raised with contexts := raised.contexts ++ [context] }

/-- The outermost context, or the cause's own text. -/
def text (raised : Raised) : String := raised.contexts.getLast?.getD raised.cause.text

/-- An error of a traversal and a type mismatch are seen through all contexts; of any other failure
only the outermost text remains. -/
def surface (raised : Raised) : CommandError :=
  match raised.cause with
  | .command error => error
  | .mismatch fault => .mismatch fault
  | .read _ | .message _ => .action raised.text

end Raised

end TextCommand
