import TextCommand.Node.Accept
import TextCommand.Node.Denial
import TextCommand.Node.Usage

/-!
# The registry

The root of a tree: the top-level commands in the order in which they were added, and a bound on the
length of the input. The node added first wins a name.
-/

namespace TextCommand

structure Registry (σ : Type) where
  limit : Option Nat
  nodes : List (Node σ)

namespace Registry

variable {σ : Type}

def empty (limit : Option Nat) : Registry σ := ⟨limit, []⟩

/-- Adds a top-level command behind the others. -/
def add (node : Node σ) (registry : Registry σ) : Registry σ :=
  { registry with nodes := registry.nodes ++ [node] }

/-- The registry as a node of a tree. -/
def toNode (registry : Registry σ) : Node σ := .registry registry.limit registry.nodes

def get? (word : String) (registry : Registry σ) : Option (Node σ) :=
  Node.first? word registry.nodes

/-- The top-level commands that the source may use. -/
def available (source : σ) (registry : Registry σ) : List (Node σ) :=
  registry.nodes.filter (·.canUse source)

def usageLines (source : σ) (registry : Registry σ) : List String :=
  Node.usageOfAll source "" registry.nodes

def run (registry : Registry σ) (source : σ) (r : Reader) : Run σ := registry.toNode.run source r

def accepts (registry : Registry σ) (r : Reader) : Bool × Reader := registry.toNode.accepts r

def suggest (registry : Registry σ) (source : σ) (r : Reader) : List String × Reader :=
  registry.toNode.suggest source r

/-- Runs a text from its start. -/
def runText (registry : Registry σ) (source : σ) (input : String) : Run σ :=
  registry.run source (.ofString input)

def acceptsText (registry : Registry σ) (input : String) : Bool :=
  (registry.accepts (.ofString input)).1

def suggestText (registry : Registry σ) (source : σ) (input : String) : List String :=
  (registry.suggest source (.ofString input)).1

/-- The first node on the literal path of a text that the source may not use. -/
def denied? (registry : Registry σ) (source : σ) (input : String) : Option String :=
  registry.toNode.denied? source (Reader.ofString input).skipBlank

end Registry

end TextCommand
