import TextCommand.Node.Run

/-!
# Permission along the path of an input

Running a command never asks for permission. `denied?` follows the literals of an input through the
tree and names the first node on the way that the source may not use; a console asks it before it
runs anything.
-/

namespace TextCommand.Node

variable {σ : Type}

mutual

def denied? (source : σ) : Node σ → Reader → Option String
  | .command head children, r =>
    if head.canUse source then
      match r.readString with
      | ⟨.ok word, next⟩ => deniedFirst? source word children next
      | ⟨.error _, _⟩ => none
    else some head.name
  | .registry _ nodes, r =>
    match r.readString with
    | ⟨.ok word, next⟩ => deniedFirst? source word nodes next
    | ⟨.error _, _⟩ => none

/-- The answer for the first node that the word names; there is none to refuse if it names none. -/
def deniedFirst? (source : σ) (word : String) : List (Node σ) → Reader → Option String
  | [], _ => none
  | node :: nodes, r =>
    if node.matchesWord word then node.denied? source r else deniedFirst? source word nodes r

end

end TextCommand.Node
