import TextCommand.Node.Draft
import TextCommand.Proofs.Node.Alike

/-!
# Traversals ask nobody for permission

With other permissions in the same tree a token names the same node, so a traversal takes the same
path, stops in front of the same arguments and enters the same action.  And since the descent does
not see the source either, one source's run enters an action if and only if any other's does.
-/

namespace TextCommand

variable {σ : Type}

/-! ### Other permissions -/

/-- The same command, but for who may use it. -/
def Command.guardedBy (permission : Option (σ → Bool)) (command : Command σ) : Command σ :=
  { command with permission }

/-- The same run, but for the permission that is written in the command that was entered. -/
def Run.guardedBy (permission : Option (σ → Bool)) (run : Run σ) : Run σ :=
  { run with call := run.call.map fun call =>
      { call with command := call.command.guardedBy permission } }

theorem Run.guardedBy_restoring (permission : Option (σ → Bool)) (run : Run σ) (r : Reader) :
    (run.restoring r).guardedBy permission = (run.guardedBy permission).restoring r := by
  obtain ⟨result, reader, source, call⟩ := run
  cases result <;> rfl

theorem Command.run_guardedBy (permission : Option (σ → Bool)) (command : Command σ) (source : σ)
    (r : Reader) :
    (command.guardedBy permission).run source r = (command.run source r).guardedBy permission := by
  unfold Command.run
  dsimp only [Command.guardedBy]
  split
  · -- no action
    rfl
  · rcases Kind.readAll command.kinds r with ⟨error | values, next⟩ <;> rfl

namespace Node

/-- The same tree, but for who may use its commands. -/
inductive SameButPermission : Node σ → Node σ → Prop
  | command {head : Command σ} (permission : Option (σ → Bool)) {children children' : List (Node σ)}
      (hchildren : List.Forall₂ SameButPermission children children') :
      SameButPermission (.command head children) (.command (head.guardedBy permission) children')
  | registry {limit : Option Nat} {nodes nodes' : List (Node σ)}
      (hnodes : List.Forall₂ SameButPermission nodes nodes') :
      SameButPermission (.registry limit nodes) (.registry limit nodes')

theorem keepsWords_sameButPermission : KeepsWords (SameButPermission (σ := σ)) := by
  intro node node' h word
  cases h <;> rfl

/-! ### The descent and its path -/

/-- The descent stops in front of the same arguments or fails with the same error. -/
theorem descend_sameButPermission {node node' : Node σ} (h : node.SameButPermission node')
    (r : Reader) :
    ∃ permission, node'.descend r =
      (node.descend r).map fun stop => ⟨stop.command.guardedBy permission, stop.entry⟩ := by
  fun_induction descend node r generalizing node' with
  | case1 head children r node next hroute ih =>
    cases h with
    | command permission hchildren =>
      obtain ⟨node', hroute', hnode⟩ :=
        route_ok_of_forall₂ keepsWords_sameButPermission hchildren hroute
      rw [descend_command, hroute']
      exact ih hnode
  | case2 head children r error hroute =>
    cases h with
    | command permission hchildren =>
      rw [descend_command, route_error_of_forall₂ keepsWords_sameButPermission hchildren hroute]
      exact ⟨permission, rfl⟩
  | case3 limit nodes r error hlimit =>
    cases h with
    | registry hnodes =>
      rw [descend_registry, hlimit]
      exact ⟨none, rfl⟩
  | case4 limit nodes r hlimit node next hroute ih =>
    cases h with
    | registry hnodes =>
      obtain ⟨node', hroute', hnode⟩ :=
        route_ok_of_forall₂ keepsWords_sameButPermission hnodes hroute
      rw [descend_registry, hlimit, hroute']
      exact ih hnode
  | case5 limit nodes r hlimit error hroute =>
    cases h with
    | registry hnodes =>
      rw [descend_registry, hlimit,
        route_error_of_forall₂ keepsWords_sameButPermission hnodes hroute]
      exact ⟨none, rfl⟩

theorem path_sameButPermission {node node' : Node σ} (h : node.SameButPermission node')
    (r : Reader) : List.Forall₂ SameButPermission (node.path r) (node'.path r) := by
  fun_induction path node r generalizing node' with
  | case1 head children r node next hroute ih =>
    cases h with
    | command permission hchildren =>
      obtain ⟨node', hroute', hnode⟩ :=
        route_ok_of_forall₂ keepsWords_sameButPermission hchildren hroute
      rw [path_command, hroute']
      exact .cons hnode (ih hnode)
  | case2 head children r error hroute =>
    cases h with
    | command permission hchildren =>
      rw [path_command, route_error_of_forall₂ keepsWords_sameButPermission hchildren hroute]
      exact .nil
  | case3 limit nodes r node next hroute ih =>
    cases h with
    | registry hnodes =>
      obtain ⟨node', hroute', hnode⟩ :=
        route_ok_of_forall₂ keepsWords_sameButPermission hnodes hroute
      rw [path_registry, hroute']
      exact .cons hnode (ih hnode)
  | case4 limit nodes r error hroute =>
    cases h with
    | registry hnodes =>
      rw [path_registry, route_error_of_forall₂ keepsWords_sameButPermission hnodes hroute]
      exact .nil

/-! ### The traversals -/

section Traversals

variable {node node' : Node σ} (h : node.SameButPermission node') (r : Reader)
include h

theorem run_sameButPermission :
    ∃ permission, ∀ source, node'.run source r = (node.run source r).guardedBy permission := by
  obtain ⟨permission, hdescend⟩ := descend_sameButPermission h r
  refine ⟨permission, fun source => ?_⟩
  rw [run_eq_descend, run_eq_descend, hdescend]
  cases node.descend r with
  | error error => rfl
  | ok stop =>
    simp only [Except.map, Run.guardedBy_restoring, Command.run_guardedBy]

theorem accepts_sameButPermission : node'.accepts r = node.accepts r := by
  obtain ⟨permission, hdescend⟩ := descend_sameButPermission h r
  rw [accepts_eq_descend, accepts_eq_descend, hdescend]
  cases node.descend r <;> rfl

theorem suggest_sameButPermission (source : σ) : node'.suggest source r = node.suggest source r := by
  obtain ⟨permission, hdescend⟩ := descend_sameButPermission h r
  rw [suggest_eq_descend, suggest_eq_descend, hdescend]
  cases node.descend r <;> rfl

end Traversals

/-- Two sources' runs enter the same action, that of the last node of the path, or fail alike. -/
theorem run_of_two_sources (node : Node σ) (r : Reader) (source source' : σ) :
    (∃ call children, (node :: node.path r).getLast? = some (.command call.command children) ∧
      (node.run source r).call = some call ∧ (node.run source' r).call = some call) ∨
    ∃ error, node.run source r = .failed error source r ∧
      node.run source' r = .failed error source' r := by
  by_cases h : ∃ head action values next, node.Reaches r head action values next
  · -- whether an action is reached does not depend on the source
    obtain ⟨head, action, values, next, hreach⟩ := h
    have hcall : ∀ source, (node.run source r).call = some ⟨head, values, next⟩ :=
      fun source => call_eq_some_iff.mpr ⟨action, hreach⟩
    obtain ⟨entry, hstop, -, -⟩ := hreach
    obtain ⟨children, hlast⟩ := getLast?_path_of_descend hstop
    exact .inl ⟨⟨head, values, next⟩, children, hlast, hcall source, hcall source'⟩
  · -- nor does the error where none is
    obtain ⟨error, hfailed⟩ := exists_run_eq_failed fun head action values next hreach =>
      h ⟨head, action, values, next, hreach⟩
    exact .inr ⟨error, hfailed source, hfailed source'⟩

/-- **Routing and decoding depend on neither permissions nor sources.**  Whatever permissions are put in
the place of those of a tree, a run stays the same in all but the permission that is written in the
command it enters, both questions are answered as before, and the path leads through the same nodes.
Two sources' runs in one tree enter the same action of the same node with the same values, or none and
fail with the same error. -/
theorem routing_ignores_permission {node node' : Node σ} (h : node.SameButPermission node')
    (r : Reader) :
    (∃ permission, ∀ source, node'.run source r = (node.run source r).guardedBy permission) ∧
    node'.accepts r = node.accepts r ∧
    (∀ source, node'.suggest source r = node.suggest source r) ∧
    List.Forall₂ SameButPermission (node.path r) (node'.path r) ∧
    ∀ source source',
      (∃ call children, (node :: node.path r).getLast? = some (.command call.command children) ∧
        (node.run source r).call = some call ∧ (node.run source' r).call = some call) ∨
      ∃ error, node.run source r = .failed error source r ∧
        node.run source' r = .failed error source' r :=
  ⟨run_sameButPermission h r, accepts_sameButPermission h r, suggest_sameButPermission h r,
    path_sameButPermission h r, run_of_two_sources node r⟩

/-- Two commands of one name, where the first hides the second; the source tells whether it is an
operator. -/
def shadowedTree (permission : Option (Bool → Bool)) : Node Bool :=
  let first := Draft.new "mode" |>.argument .int "mode" "" |>.execute fun source _ => (.ok (), source)
  let second := Draft.new "mode" |>.argument .string "mode" "" |>.execute fun source _ => (.ok (), source)
  .registry none [.command (first.command.guardedBy permission) [], second.build]

/-- Who may not use the first command runs it all the same, and does not get to the second. -/
theorem shadowedTree_runs_first :
    (shadowedTree none).SameButPermission (shadowedTree (some id)) ∧
    ((shadowedTree (some id)).run false (.ofString "mode 1")).call.map Call.values = some [.int 1] ∧
    ((shadowedTree (some id)).run false (.ofString "mode one")).result =
      .error (.read ⟨.invalidScalar .int "one", 5⟩) := by
  have hsame : (shadowedTree none).SameButPermission (shadowedTree (some id)) :=
    .registry (.cons (.command (some id) .nil) (.cons (.command none .nil) .nil))
  obtain ⟨⟨_, hone⟩, -⟩ := routing_ignores_permission hsame (.ofString "mode 1")
  obtain ⟨⟨_, hword⟩, -⟩ := routing_ignores_permission hsame (.ofString "mode one")
  refine ⟨hsame, ?_, ?_⟩
  · rw [hone]
    rfl
  · rw [hword]
    rfl

end Node

end TextCommand
