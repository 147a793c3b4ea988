import TextCommand.Registry

/-!
# The descent that all traversals share

`descend` follows the literals of an input to the command whose arguments come next, or says why
there is none.  Running, checking and suggesting are written as three recursions of their own; here
each of them is this one descent, followed by what it does at the command where the descent stops.
-/

namespace TextCommand.Node

variable {σ : Type}

/-! ### One step -/

/-- The node that the next token names, and the reader behind the token. -/
def route (nodes : List (Node σ)) (r : Reader) : Except CommandError (Node σ × Reader) :=
  match r.readString with
  | ⟨.ok word, next⟩ =>
    match first? word nodes with
    | some node => .ok (node, next)
    | none => .error (.unknownCommand word r.cursor)
  | ⟨.error error, _⟩ => .error (.read error)

theorem route_eq_ok_iff {nodes : List (Node σ)} {r next : Reader} {node : Node σ} :
    route nodes r = .ok (node, next) ↔
      ∃ word, r.readString = ⟨.ok word, next⟩ ∧ first? word nodes = some node := by
  unfold route
  split
  · next word _ hread =>
    rw [hread]
    cases hfirst : first? word nodes with
    | none => simp [hfirst]
    | some node' =>
      constructor
      · intro h
        cases h
        exact ⟨word, rfl, hfirst⟩
      · rintro ⟨word', hword, hnode⟩
        cases hword
        rw [hfirst] at hnode
        cases hnode
        rfl
  · next hread =>
    rw [hread]
    simp

theorem mem_of_route {nodes : List (Node σ)} {r next : Reader} {node : Node σ}
    (h : route nodes r = .ok (node, next)) : node ∈ nodes := by
  obtain ⟨word, -, hfirst⟩ := route_eq_ok_iff.mp h
  exact List.mem_of_find?_eq_some hfirst

theorem sizeOf_lt_of_route {nodes : List (Node σ)} {r next : Reader} {node : Node σ}
    (h : route nodes r = .ok (node, next)) : sizeOf node < sizeOf nodes :=
  List.sizeOf_lt_of_mem (mem_of_route h)

/-! ### The whole way -/

/-- A command, and the reader with which its own arguments begin. -/
structure Endpoint (σ : Type) where
  command : Command σ
  entry : Reader

/-- A registry refuses a text that is too long; otherwise it passes blanks and must find the node
that the next token names.  A command hands over to the child that the next token names, and stops
in front of that token if there is no such child. -/
def descend : Node σ → Reader → Except CommandError (Endpoint σ)
  | .command head children, r =>
    match _h : route children r with
    | .ok (node, next) => node.descend next
    | .error _ => .ok ⟨head, r⟩
  | .registry limit nodes, r =>
    match overLimit? limit r with
    | some error => .error error
    | none =>
      match _h : route nodes r.skipBlank with
      | .ok (node, next) => node.descend next
      | .error error => .error error
termination_by node => sizeOf node
decreasing_by
  all_goals
    have := sizeOf_lt_of_route _h
    simp only [command.sizeOf_spec, registry.sizeOf_spec]
    omega

theorem descend_command (head : Command σ) (children : List (Node σ)) (r : Reader) :
    (Node.command head children).descend r =
      match route children r with
      | .ok (node, next) => node.descend next
      | .error _ => .ok ⟨head, r⟩ := by
  rw [descend]
  split <;> rename_i hroute <;> rw [hroute]

theorem descend_registry (limit : Option Nat) (nodes : List (Node σ)) (r : Reader) :
    (Node.registry limit nodes).descend r =
      match overLimit? limit r with
      | some error => .error error
      | none =>
        match route nodes r.skipBlank with
        | .ok (node, next) => node.descend next
        | .error error => .error error := by
  rw [descend]
  cases overLimit? limit r with
  | some error => rfl
  | none =>
    dsimp only
    split <;> rename_i hroute <;> rw [hroute]

/-! ### The recursions over siblings -/

/-- A search that answers at the first node that a word names answers as `first?` does. -/
theorem eq_bind_first? {α : Type} (word : String) (answer : Node σ → Option α)
    (search : List (Node σ) → Option α) (hnil : search [] = none)
    (hcons : ∀ node nodes, search (node :: nodes) =
      if node.matchesWord word then answer node else search nodes) (nodes : List (Node σ)) :
    search nodes = (first? word nodes).bind answer := by
  induction nodes with
  | nil => rw [hnil]; rfl
  | cons node nodes ih =>
    rw [hcons, ih, first?, first?, List.find?_cons]
    cases node.matchesWord word <;> rfl

theorem runFirst_eq (word : String) (nodes : List (Node σ)) (source : σ) (r : Reader) :
    runFirst word nodes source r = (first? word nodes).bind fun node => some (node.run source r) :=
  eq_bind_first? word _ (runFirst word · source r) rfl (fun _ _ => rfl) nodes

theorem acceptsFirst_eq (word : String) (nodes : List (Node σ)) (r : Reader) :
    acceptsFirst word nodes r = (first? word nodes).bind fun node => some (node.accepts r) :=
  eq_bind_first? word _ (acceptsFirst word · r) rfl (fun _ _ => rfl) nodes

theorem suggestFirst_eq (word : String) (nodes : List (Node σ)) (source : σ) (r : Reader) :
    suggestFirst word nodes source r =
      (first? word nodes).bind fun node => some (node.suggest source r) :=
  eq_bind_first? word _ (suggestFirst word · source r) rfl (fun _ _ => rfl) nodes

theorem deniedFirst?_eq (source : σ) (word : String) (nodes : List (Node σ)) (r : Reader) :
    deniedFirst? source word nodes r = (first? word nodes).bind (·.denied? source r) :=
  eq_bind_first? word _ (deniedFirst? source word · r) rfl (fun _ _ => rfl) nodes

/-! ### Each traversal, one step at a time -/

theorem run_command (head : Command σ) (children : List (Node σ)) (source : σ) (r : Reader) :
    (Node.command head children).run source r =
      (match route children r with
      | .ok (node, next) => node.run source next
      | .error _ => head.run source r).restoring r := by
  rcases hread : r.readString with ⟨error | word, next⟩
  · -- nothing to read
    simp only [run, route, hread]
  · -- a token, which a child has or none
    simp only [run, route, hread, runFirst_eq]
    cases first? word children <;> rfl

theorem run_registry (limit : Option Nat) (nodes : List (Node σ)) (source : σ) (r : Reader) :
    (Node.registry limit nodes).run source r =
      match overLimit? limit r with
      | some error => .failed error source r
      | none =>
        match route nodes r.skipBlank with
        | .ok (node, next) => (node.run source next).restoring r
        | .error error => .failed error source r := by
  cases hlimit : overLimit? limit r with
  | some error => simp only [run, hlimit]
  | none =>
    rcases hread : r.skipBlank.readString with ⟨error | word, next⟩
    · simp only [run, route, hlimit, hread]
      rfl
    · simp only [run, route, hlimit, hread, runFirst_eq]
      cases first? word nodes <;> rfl

theorem accepts_command (head : Command σ) (children : List (Node σ)) (r : Reader) :
    (Node.command head children).accepts r =
      match route children r with
      | .ok (node, next) => ((node.accepts next).1, r)
      | .error _ => (head.accepts r, r) := by
  rcases hread : r.readString with ⟨error | word, next⟩
  · simp only [accepts, route, hread]
  · simp only [accepts, route, hread, acceptsFirst_eq]
    cases first? word children <;> rfl

theorem accepts_registry (limit : Option Nat) (nodes : List (Node σ)) (r : Reader) :
    (Node.registry limit nodes).accepts r =
      match overLimit? limit r with
      | some _ => (false, r)
      | none =>
        match route nodes r.skipBlank with
        | .ok (node, next) => ((node.accepts next).1, r)
        | .error _ => (false, r) := by
  cases hlimit : overLimit? limit r with
  | some error => simp only [accepts, hlimit]
  | none =>
    rcases hread : r.skipBlank.readString with ⟨error | word, next⟩
    · simp only [accepts, route, hlimit, hread]
    · simp only [accepts, route, hlimit, hread, acceptsFirst_eq]
      cases first? word nodes <;> rfl

theorem suggest_command (head : Command σ) (children : List (Node σ)) (source : σ) (r : Reader) :
    (Node.command head children).suggest source r =
      match route children r with
      | .ok (node, next) => ((node.suggest source next).1, r)
      | .error _ => (head.suggest source r, r) := by
  rcases hread : r.readString with ⟨error | word, next⟩
  · simp only [suggest, route, hread]
  · simp only [suggest, route, hread, suggestFirst_eq]
    cases first? word children <;> rfl

theorem suggest_registry (limit : Option Nat) (nodes : List (Node σ)) (source : σ) (r : Reader) :
    (Node.registry limit nodes).suggest source r =
      match overLimit? limit r with
      | some _ => ([], r)
      | none =>
        match route nodes r.skipBlank with
        | .ok (node, next) => ((node.suggest source next).1, r)
        | .error _ => ([], r) := by
  cases hlimit : overLimit? limit r with
  | some error => simp only [suggest, hlimit]
  | none =>
    rcases hread : r.skipBlank.readString with ⟨error | word, next⟩
    · simp only [suggest, route, hlimit, hread]
    · simp only [suggest, route, hlimit, hread, suggestFirst_eq]
      cases first? word nodes <;> rfl

/-! ### Each traversal is the descent and what comes after it -/

@[simp] theorem call_restoring (run : Run σ) (start : Reader) :
    (run.restoring start).call = run.call := by
  obtain ⟨result, reader, source, call⟩ := run
  cases result <;> rfl

@[simp] theorem source_restoring (run : Run σ) (start : Reader) :
    (run.restoring start).source = run.source := by
  obtain ⟨result, reader, source, call⟩ := run
  cases result <;> rfl

@[simp] theorem result_restoring (run : Run σ) (start : Reader) :
    (run.restoring start).result = run.result := by
  obtain ⟨result, reader, source, call⟩ := run
  cases result <;> rfl

theorem restoring_restoring (run : Run σ) (start next : Reader) :
    (run.restoring next).restoring start = run.restoring start := by
  obtain ⟨result, reader, source, call⟩ := run
  cases result <;> rfl

/-- A run descends, runs the command it finds, and on failure puts its reader back to the start. -/
theorem run_eq_descend (node : Node σ) (source : σ) (r : Reader) :
    node.run source r =
      match node.descend r with
      | .ok stop => (stop.command.run source stop.entry).restoring r
      | .error error => .failed error source r := by
  fun_induction descend node r with
  | case1 head children r node next hroute ih =>
    -- a child takes over
    rw [run_command, hroute]
    dsimp only
    rw [ih]
    cases node.descend next with
    | ok stop => exact restoring_restoring _ r next
    | error error => rfl
  | case2 head children r error hroute =>
    -- the descent stops here
    rw [run_command, hroute]
  | case3 limit nodes r error hlimit =>
    -- the text is too long
    rw [run_registry, hlimit]
  | case4 limit nodes r hlimit node next hroute ih =>
    -- a listed node takes over
    rw [run_registry, hlimit, hroute]
    dsimp only
    rw [ih]
    cases node.descend next with
    | ok stop => exact restoring_restoring _ r next
    | error error => rfl
  | case5 limit nodes r hlimit error hroute =>
    -- no listed node has the token
    rw [run_registry, hlimit, hroute]

theorem accepts_eq_descend (node : Node σ) (r : Reader) :
    node.accepts r =
      match node.descend r with
      | .ok stop => (stop.command.accepts stop.entry, r)
      | .error _ => (false, r) := by
  fun_induction descend node r with
  | case1 head children r node next hroute ih =>
    rw [accepts_command, hroute]
    dsimp only
    rw [ih]
    cases node.descend next <;> rfl
  | case2 head children r error hroute => rw [accepts_command, hroute]
  | case3 limit nodes r error hlimit => rw [accepts_registry, hlimit]
  | case4 limit nodes r hlimit node next hroute ih =>
    rw [accepts_registry, hlimit, hroute]
    dsimp only
    rw [ih]
    cases node.descend next <;> rfl
  | case5 limit nodes r hlimit error hroute => rw [accepts_registry, hlimit, hroute]

theorem suggest_eq_descend (node : Node σ) (source : σ) (r : Reader) :
    node.suggest source r =
      match node.descend r with
      | .ok stop => (stop.command.suggest source stop.entry, r)
      | .error _ => ([], r) := by
  fun_induction descend node r with
  | case1 head children r node next hroute ih =>
    rw [suggest_command, hroute]
    dsimp only
    rw [ih]
    cases node.descend next <;> rfl
  | case2 head children r error hroute => rw [suggest_command, hroute]
  | case3 limit nodes r error hlimit => rw [suggest_registry, hlimit]
  | case4 limit nodes r hlimit node next hroute ih =>
    rw [suggest_registry, hlimit, hroute]
    dsimp only
    rw [ih]
    cases node.descend next <;> rfl
  | case5 limit nodes r hlimit error hroute => rw [suggest_registry, hlimit, hroute]

/-! ### Properties of all commands of a tree -/

/-- `P` holds of every command of a tree. -/
inductive Everywhere (P : Command σ → Prop) : Node σ → Prop
  | command {head : Command σ} {children : List (Node σ)} (hhead : P head)
      (hchildren : ∀ node ∈ children, Everywhere P node) : Everywhere P (.command head children)
  | registry {limit : Option Nat} {nodes : List (Node σ)}
      (hnodes : ∀ node ∈ nodes, Everywhere P node) : Everywhere P (.registry limit nodes)

theorem Everywhere.of_descend {P : Command σ → Prop} {node : Node σ} {r : Reader}
    {stop : Endpoint σ} (hP : node.Everywhere P) (h : node.descend r = .ok stop) :
    P stop.command := by
  fun_induction descend node r with
  | case1 head children r node next hroute ih =>
    cases hP with
    | command hhead hchildren => exact ih (hchildren node (mem_of_route hroute)) h
  | case2 head children r error hroute =>
    cases h
    cases hP with
    | command hhead hchildren => exact hhead
  | case3 => cases h
  | case4 limit nodes r hlimit node next hroute ih =>
    cases hP with
    | registry hnodes => exact ih (hnodes node (mem_of_route hroute)) h
  | case5 => cases h

end TextCommand.Node
