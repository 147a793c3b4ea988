import TextCommand.Node.Run

/-!
# Asking about a command without running it

`accepts` tells whether a run would reach an action with the arguments ending at a blank or at the
end; `suggest` lists what the command at the end of the path proposes. Both hand back the reader
they were given.
-/

namespace TextCommand

/-- Nothing is left, or a blank comes next. -/
def Reader.atBoundary (r : Reader) : Bool := r.peek.all Text.isBlank

namespace Command

variable {σ : Type}

def accepts (command : Command σ) (start : Reader) : Bool :=
  command.isExecutable &&
    match Kind.readAll command.kinds start with
    | ⟨.error _, _⟩ => false
    | ⟨.ok _, next⟩ => next.atBoundary

/-- What the command proposes once its arguments can be read. -/
def suggest (command : Command σ) (source : σ) (start : Reader) : List String :=
  match Kind.readAll command.kinds start with
  | ⟨.error _, _⟩ => []
  | ⟨.ok _, _⟩ =>
    match command.suggestions with
    | none => []
    | some provide => provide source

end Command

namespace Node

variable {σ : Type}

mutual

def accepts : Node σ → Reader → Bool × Reader
  | .command head children, start =>
    match start.readString with
    | ⟨.ok word, next⟩ =>
      match acceptsFirst word children next with
      | some (valid, _) => (valid, start)
      | none => (head.accepts start, start)
    | ⟨.error _, _⟩ => (head.accepts start, start)
  | .registry limit nodes, start =>
    match overLimit? limit start with
    | some _ => (false, start)
    | none =>
      match start.skipBlank.readString with
      | ⟨.ok word, next⟩ =>
        match acceptsFirst word nodes next with
        | some (valid, _) => (valid, start)
        | none => (false, start)
      | ⟨.error _, _⟩ => (false, start)

/-- The answer of the first node that the word names. -/
def acceptsFirst (word : String) : List (Node σ) → Reader → Option (Bool × Reader)
  | [], _ => none
  | node :: nodes, r =>
    if node.matchesWord word then some (node.accepts r) else acceptsFirst word nodes r

end

mutual

def suggest : Node σ → σ → Reader → List String × Reader
  | .command head children, source, start =>
    match start.readString with
    | ⟨.ok word, next⟩ =>
      match suggestFirst word children source next with
      | some (items, _) => (items, start)
      | none => (head.suggest source start, start)
    | ⟨.error _, _⟩ => (head.suggest source start, start)
  | .registry limit nodes, source, start =>
    match overLimit? limit start with
    | some _ => ([], start)
    | none =>
      match start.skipBlank.readString with
      | ⟨.ok word, next⟩ =>
        match suggestFirst word nodes source next with
        | some (items, _) => (items, start)
        | none => ([], start)
      | ⟨.error _, _⟩ => ([], start)

/-- The answer of the first node that the word names. -/
def suggestFirst (word : String) : List (Node σ) → σ → Reader → Option (List String × Reader)
  | [], _, _ => none
  | node :: nodes, source, r =>
    if node.matchesWord word then some (node.suggest source r)
    else suggestFirst word nodes source r

end

end Node

end TextCommand
