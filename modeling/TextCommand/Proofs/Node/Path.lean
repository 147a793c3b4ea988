import TextCommand.Proofs.Node.WholeInput

/-!
# The path of an input and permission along it

`path` lists the nodes that an input descends through, whatever the limits on its length.  The
search for a refusing node is a recursion of its own that passes no blanks at inner registries; it
finds the first node of the path that the source may not use, and a run ends at the last one.
-/

namespace TextCommand

namespace Node

variable {σ : Type}

/-- The nodes below a node that the next tokens of an input name one after the other. -/
def path : Node σ → Reader → List (Node σ)
  | .command _ children, r =>
    match _h : route children r with
    | .ok (node, next) => node :: node.path next
    | .error _ => []
  | .registry _ nodes, r =>
    match _h : route nodes r.skipBlank with
    | .ok (node, next) => node :: node.path next
    | .error _ => []
termination_by node => sizeOf node
decreasing_by
  all_goals
    have := sizeOf_lt_of_route _h
    simp only [command.sizeOf_spec, registry.sizeOf_spec]
    omega

theorem path_command (head : Command σ) (children : List (Node σ)) (r : Reader) :
    (Node.command head children).path r =
      match route children r with
      | .ok (node, next) => node :: node.path next
      | .error _ => [] := by
  rw [path]
  split <;> rename_i hroute <;> rw [hroute]

theorem path_registry (limit : Option Nat) (nodes : List (Node σ)) (r : Reader) :
    (Node.registry limit nodes).path r =
      match route nodes r.skipBlank with
      | .ok (node, next) => node :: node.path next
      | .error _ => [] := by
  rw [path]
  split <;> rename_i hroute <;> rw [hroute]

/-- A registry's path starts behind the blanks. -/
theorem path_skipBlank (limit : Option Nat) (nodes : List (Node σ)) (r : Reader) :
    (Node.registry limit nodes).path r.skipBlank = (Node.registry limit nodes).path r := by
  rw [path_registry, path_registry, r.settled_skipBlank.skipBlank_eq]

/-! ### The end of the path -/

/-- A descent stops at the last node of the path, counting the node from which it started. -/
theorem getLast?_path_of_descend {node : Node σ} {r : Reader} {stop : Endpoint σ}
    (h : node.descend r = .ok stop) :
    ∃ children, (node :: node.path r).getLast? = some (.command stop.command children) := by
  fun_induction descend node r with
  | case1 head children r node next hroute ih =>
    -- with one more node in front the last one is the same
    obtain ⟨children', hlast⟩ := ih h
    exact ⟨children', by rw [path_command, hroute, List.getLast?_cons_cons, hlast]⟩
  | case2 head children r error hroute =>
    cases h
    exact ⟨children, by rw [path_command, hroute]; rfl⟩
  | case3 => cases h
  | case4 limit nodes r hlimit node next hroute ih =>
    obtain ⟨children', hlast⟩ := ih h
    exact ⟨children', by rw [path_registry, hroute, List.getLast?_cons_cons, hlast]⟩
  | case5 => cases h

/-- Below a registry the path itself ends there. -/
theorem getLast?_path_of_registry_descend {limit : Option Nat} {nodes : List (Node σ)} {r : Reader}
    {stop : Endpoint σ} (h : (Node.registry limit nodes).descend r = .ok stop) :
    ∃ children, ((Node.registry limit nodes).path r).getLast? =
      some (.command stop.command children) := by
  obtain ⟨children, hlast⟩ := getLast?_path_of_descend h
  cases hpath : (Node.registry limit nodes).path r with
  | nil =>
    -- the descent would have stopped at the registry
    rw [hpath] at hlast
    cases hlast
  | cons node rest =>
    rw [hpath, List.getLast?_cons_cons] at hlast
    exact ⟨children, hlast⟩

/-! ### Properties of all commands, by the names on the way -/

/-- `P` holds of every command of a tree, together with the names on the way to it. -/
inductive EverywhereAt (P : List String → Command σ → Prop) : List String → Node σ → Prop
  | command {names : List String} {head : Command σ} {children : List (Node σ)}
      (hhead : P names head)
      (hchildren : ∀ node ∈ children, EverywhereAt P (names ++ [node.name]) node) :
      EverywhereAt P names (.command head children)
  | registry {names : List String} {limit : Option Nat} {nodes : List (Node σ)}
      (hnodes : ∀ node ∈ nodes, EverywhereAt P (names ++ [node.name]) node) :
      EverywhereAt P names (.registry limit nodes)

theorem EverywhereAt.of_descend {P : List String → Command σ → Prop} {names : List String}
    {node : Node σ} {r : Reader} {stop : Endpoint σ} (hP : EverywhereAt P names node)
    (h : node.descend r = .ok stop) : P (names ++ (node.path r).map name) stop.command := by
  fun_induction descend node r generalizing names with
  | case1 head children r node next hroute ih =>
    cases hP with
    | command hhead hchildren =>
      have hnode := ih (hchildren node (mem_of_route hroute)) h
      rw [path_command, hroute, List.map_cons, List.append_cons]
      exact hnode
  | case2 head children r error hroute =>
    cases h
    cases hP with
    | command hhead hchildren =>
      rw [path_command, hroute, List.map_nil, List.append_nil]
      exact hhead
  | case3 => cases h
  | case4 limit nodes r hlimit node next hroute ih =>
    cases hP with
    | registry hnodes =>
      have hnode := ih (hnodes node (mem_of_route hroute)) h
      rw [path_registry, hroute, List.map_cons, List.append_cons]
      exact hnode
  | case5 => cases h

/-! ### The first node that refuses -/

/-- The first of several nodes that the source may not use. -/
def refusing? (source : σ) (nodes : List (Node σ)) : Option (Node σ) :=
  nodes.find? fun node => !node.canUse source

theorem denied?_command (source : σ) (head : Command σ) (children : List (Node σ)) (r : Reader) :
    (Node.command head children).denied? source r =
      if head.canUse source then
        match route children r with
        | .ok (node, next) => node.denied? source next
        | .error _ => none
      else some head.name := by
  rcases hread : r.readString with ⟨error | word, next⟩
  · simp only [denied?, route, hread]
  · simp only [denied?, route, hread, deniedFirst?_eq]
    cases first? word children <;> rfl

theorem denied?_registry (source : σ) (limit : Option Nat) (nodes : List (Node σ)) (r : Reader) :
    (Node.registry limit nodes).denied? source r =
      match route nodes r with
      | .ok (node, next) => node.denied? source next
      | .error _ => none := by
  rcases hread : r.readString with ⟨error | word, next⟩
  · simp only [denied?, route, hread]
  · simp only [denied?, route, hread, deniedFirst?_eq]
    cases first? word nodes <;> rfl

/-- The search along the literals and the path agree wherever no blank comes next, which is so
behind every token. -/
theorem denied?_eq_refusing? (node : Node σ) (source : σ) {r : Reader} (hr : r.Settled) :
    node.denied? source r = (refusing? source (node :: node.path r)).map name := by
  fun_induction path node r with
  | case1 head children r node next hroute ih =>
    rw [denied?_command, hroute, refusing?, List.find?_cons, canUse]
    cases head.canUse source with
    | true =>
      -- no blank comes next behind a token
      exact ih (passes_of_route hroute).settled
    | false => rfl
  | case2 head children r error hroute =>
    rw [denied?_command, hroute, refusing?, List.find?_cons, canUse]
    cases head.canUse source <;> rfl
  | case3 limit nodes r node next hroute ih =>
    rw [hr.skipBlank_eq] at hroute
    rw [denied?_registry, hroute, refusing?, List.find?_cons, canUse]
    exact ih (passes_of_route hroute).settled
  | case4 limit nodes r error hroute =>
    rw [hr.skipBlank_eq] at hroute
    rw [denied?_registry, hroute]
    rfl

end Node

namespace Registry

variable {σ : Type} (registry : Registry σ) (source : σ) (input : String)

/-- The nodes that a text descends through below the registry. -/
def path : List (Node σ) := registry.toNode.path (.ofString input)

/-- A registry is asked behind the leading blanks, and may itself always be used. -/
theorem denied?_eq_refusing? :
    registry.denied? source input =
      (Node.refusing? source (registry.path input)).map Node.name := by
  have h := registry.toNode.denied?_eq_refusing? source (Reader.ofString input).settled_skipBlank
  rw [toNode, Node.path_skipBlank] at h
  exact h

theorem denied?_eq_none_iff :
    registry.denied? source input = none ↔
      ∀ node ∈ registry.path input, node.canUse source = true := by
  rw [denied?_eq_refusing?, Option.map_eq_none_iff, Node.refusing?, List.find?_eq_none]
  simp only [Bool.not_eq_true', Bool.not_eq_false]

theorem denied?_eq_some_iff {name : String} :
    registry.denied? source input = some name ↔
      ∃ front node back, registry.path input = front ++ node :: back ∧
        (∀ earlier ∈ front, earlier.canUse source = true) ∧
        node.canUse source = false ∧ node.name = name := by
  rw [denied?_eq_refusing?, Option.map_eq_some_iff]
  simp only [Node.refusing?, List.find?_eq_some_iff_append, Bool.not_eq_true', Bool.not_not]
  constructor
  · rintro ⟨node, ⟨hrefuses, front, back, hpath, hfront⟩, hname⟩
    exact ⟨front, node, back, hpath, hfront, hrefuses, hname⟩
  · rintro ⟨front, node, back, hpath, hfront, hrefuses, hname⟩
    exact ⟨node, ⟨hrefuses, front, back, hpath, hfront⟩, hname⟩

/-- A run that gets as far as a command gets to the last one of the path. -/
theorem getLast?_path_of_descend {stop : Node.Endpoint σ}
    (h : registry.toNode.descend (.ofString input) = .ok stop) :
    ∃ children, (registry.path input).getLast? = some (.command stop.command children) :=
  Node.getLast?_path_of_registry_descend h

/-- A run enters the action of the last node of the path or none. -/
theorem getLast?_path_of_call {call : Call σ} (h : (registry.runText source input).call = some call) :
    ∃ children, (registry.path input).getLast? = some (.command call.command children) := by
  obtain ⟨action, entry, hstop, -, -⟩ := Node.call_eq_some_iff.mp h
  exact registry.getLast?_path_of_descend input hstop

end Registry

end TextCommand
