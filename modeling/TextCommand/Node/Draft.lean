import TextCommand.Node.Basic

/-!
# Drafting a command

A draft starts from a name and is built up step by step. Declaring an argument drops the action,
which was meant for the arguments declared before; so the action is bound last.
-/

namespace TextCommand

structure Draft (σ : Type) where
  command : Command σ
  children : List (Node σ)

namespace Draft

variable {σ : Type}

def new (name : String) : Draft σ :=
  { command :=
      { name, description := "", aliases := [], arguments := [], kinds := [], permission := none,
        action := none, suggestions := none }
    children := [] }

def description (text : String) (d : Draft σ) : Draft σ :=
  { d with command := { d.command with description := text } }

/-- Adds a further name. -/
def alsoNamed (word : String) (d : Draft σ) : Draft σ :=
  { d with command := { d.command with aliases := d.command.aliases ++ [word] } }

def requires (permits : σ → Bool) (d : Draft σ) : Draft σ :=
  { d with command := { d.command with permission := some permits } }

def suggests (provide : σ → List String) (d : Draft σ) : Draft σ :=
  { d with command := { d.command with suggestions := some provide } }

/-- Adds a child behind the others. -/
def child (node : Node σ) (d : Draft σ) : Draft σ := { d with children := d.children ++ [node] }

/-- Declares a further argument, whose kind is set here whatever it was before. -/
def describedArgument (kind : Kind) (argument : Argument) (d : Draft σ) : Draft σ :=
  { d with
    command :=
      { d.command with
        arguments := d.command.arguments ++ [{ argument with kind := kind.name }]
        kinds := d.command.kinds ++ [kind]
        action := none } }

/-- Declares a further required argument. -/
def argument (kind : Kind) (name description : String) (d : Draft σ) : Draft σ :=
  d.describedArgument kind (.new name description)

def execute (action : Action σ) (d : Draft σ) : Draft σ :=
  { d with command := { d.command with action := some action } }

def build (d : Draft σ) : Node σ := .command d.command d.children

end Draft

end TextCommand
