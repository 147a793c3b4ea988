import Mathlib.Data.List.Basic
import TextCommand.Node.Draft
import TextCommand.Registry

/-!
# Usage lines and the ways that they stand for

A place in a tree is given by the number of a child at each step, and the way to it is the nodes that are
passed, the last one included.  A node comes before all that hangs below it, and a child with all that
hangs below it before the next child: that is the lexicographic order of places.  In this order a registry
has one usage line for each way whose nodes the source may all use and whose last one has an action.
-/

namespace TextCommand

namespace Node

variable {σ : Type}

/-- The nodes on the way to a place, without the one from which the way starts. -/
def way? (node : Node σ) : List Nat → Option (List (Node σ))
  | [] => some []
  | i :: place => node.children[i]?.bind fun child => (child.way? place).map (child :: ·)

/-- A place and the way to it. -/
structure Located (σ : Type) where
  place : List Nat
  way : List (Node σ)

/-- The same place and way from one level higher, where `node` is the child number `i`. -/
def Located.under (i : Nat) (node : Node σ) (found : Located σ) : Located σ :=
  ⟨i :: found.place, node :: found.way⟩

/-- The arguments as a usage line has them, each behind a space. -/
def slots (node : Node σ) : String :=
  String.join (node.arguments.map fun a =>
    " " ++ if a.required then "<" ++ a.name ++ ">" else "[" ++ a.name ++ "]")

/-- The line of a way: the names on it, but for empty ones in front, and the arguments of its last node. -/
def usageLine (way : List (Node σ)) : String :=
  " ".intercalate ((way.map name).dropWhile (·.isEmpty)) ++ (way.getLast?.map slots).getD ""

/-- The source may use every node of the way, and the last one has an action. -/
def HasLine (source : σ) (way : List (Node σ)) : Prop :=
  (∀ node ∈ way, node.canUse source = true) ∧ ∃ last, way.getLast? = some last ∧ last.isExecutable = true

/-! ### Trees -/

theorem sizeOf_lt_of_mem_children {node child : Node σ} (h : child ∈ node.children) :
    sizeOf child < sizeOf node := by
  cases node with
  | command head children =>
    have hlt : sizeOf child < sizeOf children := List.sizeOf_lt_of_mem h
    rw [command.sizeOf_spec]
    omega
  | registry limit nodes =>
    have hlt : sizeOf child < sizeOf nodes := List.sizeOf_lt_of_mem h
    rw [registry.sizeOf_spec]
    omega

/-- What a node has as soon as its children have it, every node has. -/
theorem induction_on_children {P : Node σ → Prop}
    (step : ∀ node : Node σ, (∀ child ∈ node.children, P child) → P node) (node : Node σ) : P node :=
  step node fun child _ => induction_on_children step child
termination_by sizeOf node
decreasing_by exact sizeOf_lt_of_mem_children ‹_›

theorem way?_cons_eq_some_iff {node : Node σ} {i : Nat} {place : List Nat} {way : List (Node σ)} :
    node.way? (i :: place) = some way ↔
      ∃ child below, node.children[i]? = some child ∧ child.way? place = some below ∧
        way = child :: below := by
  simp only [way?, Option.bind_eq_some_iff, Option.map_eq_some_iff]
  constructor
  · rintro ⟨child, hchild, below, hbelow, rfl⟩
    exact ⟨child, below, hchild, hbelow, rfl⟩
  · rintro ⟨child, below, hchild, hbelow, rfl⟩
    exact ⟨child, hchild, below, hbelow, rfl⟩

/-! ### The ways in their order -/

mutual

/-- The ways to nodes that have a line, in the order of their places; the empty way leads to the node
itself. -/
def linedWays (source : σ) : Node σ → List (Located σ)
  | .command head children =>
    (if head.isExecutable then [⟨[], []⟩] else []) ++ linedWaysFrom source 0 children
  | .registry _ nodes => linedWaysFrom source 0 nodes

/-- The ways that go through siblings, the first of which has the number `i`. -/
def linedWaysFrom (source : σ) (i : Nat) : List (Node σ) → List (Located σ)
  | [] => []
  | node :: nodes =>
    (if node.canUse source then (linedWays source node).map (.under i node) else []) ++
      linedWaysFrom source (i + 1) nodes

end

theorem linedWays_eq (source : σ) (node : Node σ) :
    linedWays source node =
      (if node.isExecutable then [⟨[], []⟩] else []) ++ linedWaysFrom source 0 node.children := by
  cases node with
  | command head children => rfl
  | registry limit nodes => rfl

/-- A way through siblings goes through one that the source may use, and on from there. -/
theorem mem_linedWaysFrom {source : σ} {i : Nat} {nodes : List (Node σ)} {found : Located σ} :
    found ∈ linedWaysFrom source i nodes ↔
      ∃ j node below, nodes[j]? = some node ∧ node.canUse source = true ∧
        below ∈ linedWays source node ∧ found = below.under (i + j) node := by
  induction nodes generalizing i with
  | nil => simp [linedWaysFrom]
  | cons node nodes ih =>
    rw [linedWaysFrom, List.mem_append, ih]
    constructor
    · rintro (hfirst | ⟨j, later, below, hnode, huse, hbelow, rfl⟩)
      · -- the way goes through the first sibling
        by_cases huse : node.canUse source = true
        · rw [if_pos huse] at hfirst
          obtain ⟨below, hbelow, rfl⟩ := List.mem_map.mp hfirst
          exact ⟨0, node, below, rfl, huse, hbelow, rfl⟩
        · rw [if_neg huse] at hfirst
          cases hfirst
      · -- through a later one
        exact ⟨j + 1, later, below, hnode, huse, hbelow, by rw [Nat.add_right_comm, Nat.add_assoc]⟩
    · rintro ⟨_ | j, later, below, hnode, huse, hbelow, rfl⟩
      · cases hnode
        rw [if_pos huse]
        exact .inl (List.mem_map.mpr ⟨below, hbelow, rfl⟩)
      · exact .inr ⟨j, later, below, hnode, huse, hbelow, by rw [Nat.add_right_comm, Nat.add_assoc]⟩

theorem mem_linedWays {source : σ} {node : Node σ} {found : Located σ} :
    found ∈ linedWays source node ↔
      node.way? found.place = some found.way ∧ (∀ passed ∈ found.way, passed.canUse source = true) ∧
        ∃ last, (node :: found.way).getLast? = some last ∧ last.isExecutable = true := by
  induction node using induction_on_children generalizing found with
  | step node ih =>
    obtain ⟨place, way⟩ := found
    rw [linedWays_eq, List.mem_append, mem_linedWaysFrom]
    simp only [Nat.zero_add]
    constructor
    · rintro (hself | ⟨i, child, below, hchild, huse, hbelow, hfound⟩)
      · -- the empty way
        by_cases hexecutable : node.isExecutable = true
        · rw [if_pos hexecutable] at hself
          cases List.mem_singleton.mp hself
          exact ⟨rfl, List.forall_mem_nil _, node, rfl, hexecutable⟩
        · rw [if_neg hexecutable] at hself
          cases hself
      · -- a way through a child
        cases hfound
        obtain ⟨hway, hpermitted, hlast⟩ := (ih child (List.mem_of_getElem? hchild)).mp hbelow
        refine ⟨way?_cons_eq_some_iff.mpr ⟨child, below.way, hchild, hway, rfl⟩,
          List.forall_mem_cons.mpr ⟨huse, hpermitted⟩, ?_⟩
        rw [List.getLast?_cons_cons]
        exact hlast
    · rintro ⟨hway, hpermitted, hlast⟩
      cases place with
      | nil =>
        cases hway
        obtain ⟨last, hlast, hexecutable⟩ := hlast
        have hself : node = last := Option.some.inj hlast
        rw [hself, if_pos hexecutable]
        exact .inl List.mem_cons_self
      | cons i place =>
        obtain ⟨child, below, hchild, hbelow, rfl⟩ := way?_cons_eq_some_iff.mp hway
        obtain ⟨huse, hpermitted⟩ := List.forall_mem_cons.mp hpermitted
        rw [List.getLast?_cons_cons] at hlast
        exact .inr ⟨i, child, ⟨place, below⟩, hchild, huse,
          (ih child (List.mem_of_getElem? hchild)).mpr ⟨hbelow, hpermitted, hlast⟩, rfl⟩

/-- Two ways, the first of which leads to an earlier place. -/
def Located.Precedes (found found' : Located σ) : Prop :=
  List.Lex (· < ·) found.place found'.place

theorem pairwise_linedWaysFrom {source : σ} {i : Nat} {nodes : List (Node σ)}
    (h : ∀ node ∈ nodes, (linedWays source node).Pairwise Located.Precedes) :
    (linedWaysFrom source i nodes).Pairwise Located.Precedes := by
  induction nodes generalizing i with
  | nil => exact .nil
  | cons node nodes ih =>
    obtain ⟨hnode, hnodes⟩ := List.forall_mem_cons.mp h
    rw [linedWaysFrom, List.pairwise_append]
    refine ⟨?_, ih hnodes, ?_⟩
    · split
      · exact List.pairwise_map.mpr (hnode.imp fun hplace => .cons hplace)
      · exact .nil
    · intro found hfound found' hfound'
      split at hfound
      · -- a way through the first sibling has the number `i`, all others have a greater one
        obtain ⟨below, -, rfl⟩ := List.mem_map.mp hfound
        obtain ⟨j, later, below', -, -, -, rfl⟩ := mem_linedWaysFrom.mp hfound'
        exact .rel (by omega)
      · cases hfound

theorem pairwise_linedWays (source : σ) (node : Node σ) :
    (linedWays source node).Pairwise Located.Precedes := by
  induction node using induction_on_children with
  | step node ih =>
    rw [linedWays_eq, List.pairwise_append]
    refine ⟨?_, pairwise_linedWaysFrom ih, ?_⟩
    · split
      · exact List.pairwise_singleton _ _
      · exact .nil
    · intro found hfound found' hfound'
      split at hfound
      · -- the empty way is before all others
        cases List.mem_singleton.mp hfound
        obtain ⟨j, child, below, -, -, -, rfl⟩ := mem_linedWaysFrom.mp hfound'
        exact .nil
      · cases hfound

/-! ### Lines -/

/-- The line of a way that goes on from a path of names. -/
def lineFrom (path : String) (way : List (Node σ)) : String :=
  (way.map name).foldl joinPath path ++ (way.getLast?.map slots).getD ""

theorem lineFrom_cons (path : String) (node : Node σ) {way : List (Node σ)} (h : way ≠ []) :
    lineFrom path (node :: way) = lineFrom (joinPath path node.name) way := by
  obtain ⟨next, way, rfl⟩ := List.exists_cons_of_ne_nil h
  rw [lineFrom, lineFrom, List.getLast?_cons_cons, List.map_cons, List.foldl_cons]

theorem intercalate_usage (front : String) (arguments : List Argument) :
    " ".intercalate (front :: arguments.map Argument.usage) =
      front ++ String.join (arguments.map fun a => " " ++ a.usage) := by
  induction arguments generalizing front with
  | nil => rw [List.map_nil, List.map_nil, String.intercalate_singleton, String.join_nil, String.append_empty]
  | cons a arguments ih =>
    rw [List.map_cons, List.map_cons, String.join_cons, String.intercalate_cons_cons, ih]
    simp only [String.append_assoc]

/-- A usage text is the name of its node, and the arguments. -/
theorem usage_eq (node : Node σ) : node.usage = node.name ++ node.slots := by
  rw [usage, intercalate_usage]
  rfl

/-- Whatever the name is, what its usage text has behind it is the arguments. -/
theorem lineAt_eq (path : String) (node : Node σ) : lineAt path node = path ++ node.slots := by
  have hbehind : node.name.toList.isPrefixOf? node.usage.toList = some node.slots.toList := by
    rw [List.isPrefixOf?_eq_some_iff_append_eq, usage_eq, String.toList_append]
  rw [lineAt, hbehind, Option.map_some, String.ofList_toList, Option.getD_some]

theorem usageBelow_eq (source : σ) (path : String) (node : Node σ) :
    node.usageBelow source path =
      (if node.isExecutable then [lineFrom path [node]] else []) ++
        usageOfAll source (joinPath path node.name) node.children := by
  cases node with
  | command head children =>
    rw [usageBelow, lineAt_eq]
    rfl
  | registry limit nodes => rfl

theorem usageOfAll_eq_map {source : σ} {path : String} (i : Nat) {nodes : List (Node σ)}
    (h : ∀ node ∈ nodes, node.usageBelow source path =
      (linedWays source node).map fun found => lineFrom path (node :: found.way)) :
    usageOfAll source path nodes =
      (linedWaysFrom source i nodes).map fun found => lineFrom path found.way := by
  induction nodes generalizing i with
  | nil => rfl
  | cons node nodes ih =>
    obtain ⟨hnode, hnodes⟩ := List.forall_mem_cons.mp h
    rw [usageOfAll, linedWaysFrom, List.map_append, ih (i + 1) hnodes]
    by_cases huse : node.canUse source = true
    · rw [if_pos huse, if_pos huse, hnode, List.map_map]
      rfl
    · rw [if_neg huse, if_neg huse]
      rfl

theorem usageBelow_eq_map (source : σ) (path : String) (node : Node σ) :
    node.usageBelow source path =
      (linedWays source node).map fun found => lineFrom path (node :: found.way) := by
  induction node using induction_on_children generalizing path with
  | step node ih =>
    have hbelow := usageOfAll_eq_map 0 fun child hchild => ih child hchild (joinPath path node.name)
    rw [usageBelow_eq, linedWays_eq, List.map_append, hbelow]
    congr 1
    · split <;> rfl
    · refine List.map_congr_left fun found hfound => (lineFrom_cons path node ?_).symm
      obtain ⟨j, child, below, -, -, -, rfl⟩ := mem_linedWaysFrom.mp hfound
      exact List.cons_ne_nil _ _

/-- Names behind a path that is not empty are joined to it by spaces. -/
theorem foldl_joinPath {path : String} (h : path.isEmpty = false) (names : List String) :
    names.foldl joinPath path = " ".intercalate (path :: names) := by
  induction names generalizing path with
  | nil => rw [List.foldl_nil, String.intercalate_singleton]
  | cons name names ih =>
    have hjoined : (joinPath path name).isEmpty = false := by
      simp [joinPath, h]
    rw [List.foldl_cons, ih hjoined, joinPath, if_neg (by simp [h]), String.intercalate_cons_append,
      String.intercalate_cons_cons]

/-- Empty names do not count as long as nothing stands in front of them. -/
theorem foldl_joinPath_empty (names : List String) :
    names.foldl joinPath "" = " ".intercalate (names.dropWhile (·.isEmpty)) := by
  induction names with
  | nil => rfl
  | cons name names ih =>
    have hfirst : joinPath "" name = name := rfl
    rw [List.foldl_cons, hfirst]
    by_cases hname : name.isEmpty = true
    · -- an empty name in front is dropped
      rw [List.dropWhile_cons_of_pos hname, String.isEmpty_iff.mp hname, ih]
    · -- from the first name that is not empty on, all names count
      rw [List.dropWhile_cons_of_neg hname, foldl_joinPath (by simpa using hname)]

theorem lineFrom_empty (way : List (Node σ)) : lineFrom "" way = usageLine way := by
  rw [lineFrom, usageLine, foldl_joinPath_empty]

/-- The usage text of a single node is the line of the way that it makes up. -/
theorem usage_eq_usageLine (node : Node σ) : node.usage = usageLine [node] := by
  have hname : " ".intercalate ([node.name].dropWhile (·.isEmpty)) = node.name := by
    rw [← foldl_joinPath_empty]
    rfl
  rw [usage_eq, usageLine, List.map_singleton, hname]
  rfl

end Node

/-- **Usage lines are exactly the permitted executable paths.**  They are the lines of certain ways, in the
order of the places to which these lead, nodes in front of what hangs below them and siblings one after
the other.  The ways are all that have an action at their end and that the source may use node by node,
and no others.  What a line says behind the names is what its last node says of itself. -/
theorem Registry.usageLines_are_permitted_ways {σ : Type} (registry : Registry σ) (source : σ) :
    (∃ listed : List (Node.Located σ),
      listed.Pairwise (fun found found' => List.Lex (· < ·) found.place found'.place) ∧
      (∀ place way, ⟨place, way⟩ ∈ listed ↔
        registry.toNode.way? place = some way ∧ Node.HasLine source way) ∧
      registry.usageLines source = listed.map fun found => Node.usageLine found.way) ∧
    ∀ node : Node σ, node.usage = Node.usageLine [node] := by
  refine ⟨⟨Node.linedWays source registry.toNode, Node.pairwise_linedWays source registry.toNode,
    fun place way => ?_, ?_⟩, Node.usage_eq_usageLine⟩
  · rw [Node.mem_linedWays]
    cases way with
    | nil =>
      -- the registry itself has no action, so the empty way has no line
      have hroot : registry.toNode.isExecutable = false := rfl
      simp [Node.HasLine, hroot]
    | cons node way =>
      rw [List.getLast?_cons_cons]
      rfl
  · have hnodes : ∀ node ∈ registry.nodes, node.usageBelow source "" = _ :=
      fun node _ => Node.usageBelow_eq_map source "" node
    rw [usageLines, Node.usageOfAll_eq_map 0 hnodes]
    exact List.map_congr_left fun found _ => Node.lineFrom_empty found.way

/-- An operator sees a nameless command, a registry between two commands, and two commands of one name;
others see neither the nameless command nor what hangs below it. -/
example :
    let act : Action Bool := fun source _ => (.ok (), source)
    let say := Draft.new "say" |>.describedArgument .int ⟨"n", "", false, ""⟩ |>.execute act
    let op := Draft.new "" |>.requires id |>.child (.registry none [say.build])
      |>.argument .string "who" "" |>.execute act
    let registry : Registry Bool := ⟨none, [op.build, say.build, say.build]⟩
    registry.usageLines true = [" <who>", "<root> say [n]", "say [n]", "say [n]"] ∧
    registry.usageLines false = ["say [n]", "say [n]"] := by
  decide

end TextCommand
