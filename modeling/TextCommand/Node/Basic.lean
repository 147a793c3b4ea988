import TextCommand.Argument.Read

/-!
# Commands and the tree they form

A command has a name, arguments and perhaps an action; the tree hangs further nodes under it. A
registry is a node too: it holds top-level commands and may bound the length of the input. The type
`σ` is that of the sources on behalf of which commands run.
-/

namespace TextCommand

/-- What a command does: from the source and the values of its arguments to success or failure and
the source afterwards. -/
abbrev Action (σ : Type) := σ → List Value → Except Raised Unit × σ

structure Command (σ : Type) where
  name : String
  description : String
  aliases : List String
  arguments : List Argument
  /-- how the arguments are read, in order -/
  kinds : List Kind
  permission : Option (σ → Bool)
  action : Option (Action σ)
  suggestions : Option (σ → List String)

inductive Node (σ : Type) where
  | command (head : Command σ) (children : List (Node σ))
  | registry (limit : Option Nat) (nodes : List (Node σ))

namespace Command

variable {σ : Type}

def isExecutable (command : Command σ) : Bool := command.action.isSome

def canUse (command : Command σ) (source : σ) : Bool :=
  match command.permission with
  | none => true
  | some permits => permits source

end Command

namespace Node

variable {σ : Type}

instance : Inhabited (Node σ) := ⟨.registry none []⟩

/-- The name of every registry. -/
def rootName : String := "<root>"

def name : Node σ → String
  | .command head _ => head.name
  | .registry _ _ => rootName

def description : Node σ → String
  | .command head _ => head.description
  | .registry _ _ => ""

def aliases : Node σ → List String
  | .command head _ => head.aliases
  | .registry _ _ => []

def arguments : Node σ → List Argument
  | .command head _ => head.arguments
  | .registry _ _ => []

def children : Node σ → List (Node σ)
  | .command _ children => children
  | .registry _ nodes => nodes

/-- An action is bound, so the node can end a command. -/
def isExecutable : Node σ → Bool
  | .command head _ => head.isExecutable
  | .registry _ _ => false

def canUse (source : σ) : Node σ → Bool
  | .command head _ => head.canUse source
  | .registry _ _ => true

/-- The word is the node's name or one of its aliases. -/
def matchesWord (word : String) (node : Node σ) : Bool :=
  node.name == word || node.aliases.contains word

/-- The first of several nodes that a word names. -/
def first? (word : String) (nodes : List (Node σ)) : Option (Node σ) :=
  nodes.find? (matchesWord word)

def child? (word : String) (node : Node σ) : Option (Node σ) := first? word node.children

/-- The node reached by taking a child by its number at each step. -/
def descendant? (node : Node σ) : List Nat → Option (Node σ)
  | [] => some node
  | i :: path => node.children[i]?.bind (·.descendant? path)

/-- The name followed by the arguments. -/
def usage (node : Node σ) : String :=
  " ".intercalate (node.name :: node.arguments.map Argument.usage)

def inspectLimit : Option Nat → String
  | none => "None"
  | some limit => s!"Some({limit})"

def inspect : Node σ → String
  | .command head children =>
    Text.inspectRecord "CommandNode"
      [("name", Text.inspect head.name),
       ("aliases", Text.inspectList (head.aliases.map Text.inspect)),
       ("arguments", Text.inspectList (head.arguments.map Argument.inspect)),
       ("children", toString children.length),
       ("executable", Text.inspectBool head.isExecutable)]
  | .registry limit nodes =>
    Text.inspectRecord "Registry"
      [("nodes", Text.inspectList (nodes.map fun node => Text.inspect node.name)),
       ("options", Text.inspectRecord "RegistryOptions" [("max_input_length", inspectLimit limit)])]

end Node

end TextCommand
