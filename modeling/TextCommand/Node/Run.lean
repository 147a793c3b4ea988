import TextCommand.Node.Basic

/-!
# Running a command

A command node reads one word or quoted string; if that names a child, the child takes over.
Otherwise the node goes back and reads its own arguments, and its action is run. A registry passes
blanks, reads one word or quoted string, and hands over to the node of that name. A run that fails
puts its reader back, at every level.
-/

namespace TextCommand

/-- An action that was entered: the command, the values it was given, and the reader behind the last
argument. -/
structure Call (σ : Type) where
  command : Command σ
  values : List Value
  reader : Reader

structure Run (σ : Type) where
  result : Except CommandError Unit
  reader : Reader
  source : σ
  /-- the action that was entered, whether it succeeded or not -/
  call : Option (Call σ)

namespace Run

variable {σ : Type}

/-- A run that ends before any action. -/
def failed (error : CommandError) (source : σ) (reader : Reader) : Run σ :=
  ⟨.error error, reader, source, none⟩

/-- Puts the reader back if the run failed. -/
def restoring (start : Reader) (run : Run σ) : Run σ :=
  match run.result with
  | .ok _ => run
  | .error _ => { run with reader := start }

end Run

/-- The error of an input that has more characters than a registry allows. The whole text counts,
wherever the reader stands. -/
def overLimit? (limit : Option Nat) (r : Reader) : Option CommandError :=
  limit.bind fun limit =>
    if limit < r.chars.length then some (.tooLong r.chars.length limit) else none

namespace Command

variable {σ : Type}

/-- Reads the arguments and runs the action. -/
def run (command : Command σ) (source : σ) (start : Reader) : Run σ :=
  match command.action with
  | none => .failed (.shape "Invalid command" start.cursor) source start
  | some action =>
    match Kind.readAll command.kinds start with
    | ⟨.error error, next⟩ => .failed error source next
    | ⟨.ok values, next⟩ =>
      let (result, after) := action source values
      ⟨result.mapError Raised.surface, next, after, some ⟨command, values, next⟩⟩

end Command

namespace Node

variable {σ : Type}

mutual

def run : Node σ → σ → Reader → Run σ
  | .command head children, source, start =>
    (match start.readString with
    | ⟨.ok word, next⟩ =>
      match runFirst word children source next with
      | some run => run
      | none => head.run source start
    | ⟨.error _, _⟩ => head.run source start).restoring start
  | .registry limit nodes, source, start =>
    match overLimit? limit start with
    | some error => .failed error source start
    | none =>
      (match start.skipBlank.readString with
      | ⟨.ok word, next⟩ =>
        match runFirst word nodes source next with
        | some run => run
        | none => .failed (.unknownCommand word start.skipBlank.cursor) source next
      | ⟨.error error, next⟩ => .failed (.read error) source next).restoring start

/-- The run of the first node that the word names. -/
def runFirst (word : String) : List (Node σ) → σ → Reader → Option (Run σ)
  | [], _, _ => none
  | node :: nodes, source, r =>
    if node.matchesWord word then some (node.run source r) else runFirst word nodes source r

end

end Node

end TextCommand
