import TextCommand.Node.Basic

/-!
# Usage lines

One line for each executable node that the source may use, nodes in front of their children and
siblings in order. A node that the source may not use hides all that hangs below it.
-/

namespace TextCommand.Node

variable {σ : Type}

/-- The names on the way to a node, separated by spaces. -/
def joinPath (path name : String) : String := if path.isEmpty then name else path ++ " " ++ name

/-- The path to a node, with what its usage text has behind its own name. -/
def lineAt (path : String) (node : Node σ) : String :=
  path ++ ((node.name.toList.isPrefixOf? node.usage.toList).map String.ofList).getD ""

mutual

/-- The lines of a node and of all below it, where `path` leads to its parent. -/
def usageBelow (source : σ) (path : String) : Node σ → List String
  | .command head children =>
    (if head.isExecutable then [lineAt (joinPath path head.name) (.command head children)] else []) ++
      usageOfAll source (joinPath path head.name) children
  | .registry _ nodes => usageOfAll source (joinPath path rootName) nodes

/-- The lines of the usable ones among several nodes. -/
def usageOfAll (source : σ) (path : String) : List (Node σ) → List String
  | [] => []
  | node :: nodes =>
    (if node.canUse source then node.usageBelow source path else []) ++
      usageOfAll source path nodes

end

end TextCommand.Node
