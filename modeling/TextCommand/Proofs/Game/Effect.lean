import TextCommand.Game.Commands
import TextCommand.Proofs.Node.Descent

/-!
# What the game commands change

Every step of the game either fails and leaves the session as it was, or says one line and changes at
most one part of it.  Which part it is, is shown step by step; what holds of the sessions before and
after a command of the tree follows from that, and so does that only operators may use what changes
the mode.
-/

namespace TextCommand.Game

/-- The part of a session that a step may change, apart from the lines it has said. -/
inductive Part where
  | nothing | scoreboard | position | mode
deriving DecidableEq

/-- `after` is `before` with one more line said, and that part changed. -/
def Part.Changed (before after : Session) : Part → Prop
  | .nothing => ∃ line, after = before.say line
  | .scoreboard => ∃ scoreboard line, after = { before with scoreboard }.say line
  | .position => ∃ position line, after = { before with position }.say line
  | .mode => ∃ mode line, after = { before with mode }.say line

/-- All that a step which may change that part leaves alone, apart from the lines it has said. -/
structure Part.Frame (part : Part) (before after : Session) : Prop where
  name : after.name = before.name
  operator : after.operator = before.operator
  scoreboard : part ≠ .scoreboard → after.scoreboard = before.scoreboard
  position : part ≠ .position → after.position = before.position
  mode : part ≠ .mode → after.mode = before.mode

theorem Part.Changed.frame {part : Part} {before after : Session}
    (h : part.Changed before after) : part.Frame before after := by
  cases part with
  | nothing =>
    obtain ⟨line, rfl⟩ := h
    exact ⟨rfl, rfl, fun _ => rfl, fun _ => rfl, fun _ => rfl⟩
  | scoreboard =>
    obtain ⟨scoreboard, line, rfl⟩ := h
    exact ⟨rfl, rfl, fun hpart => absurd rfl hpart, fun _ => rfl, fun _ => rfl⟩
  | position =>
    obtain ⟨position, line, rfl⟩ := h
    exact ⟨rfl, rfl, fun _ => rfl, fun hpart => absurd rfl hpart, fun _ => rfl⟩
  | mode =>
    obtain ⟨mode, line, rfl⟩ := h
    exact ⟨rfl, rfl, fun _ => rfl, fun _ => rfl, fun hpart => absurd rfl hpart⟩

theorem Part.Changed.exists_output {part : Part} {before after : Session}
    (h : part.Changed before after) : ∃ line, after.output = before.output ++ [line] := by
  cases part with
  | nothing =>
    obtain ⟨line, rfl⟩ := h
    exact ⟨line, rfl⟩
  | scoreboard | position | mode =>
    obtain ⟨value, line, rfl⟩ := h
    exact ⟨line, rfl⟩

/-- What a step may answer: failure and the session as it was, or success and that part changed. -/
def Part.Allows (part : Part) (before : Session) : Except Raised Unit × Session → Prop
  | (.ok _, after) => part.Changed before after
  | (.error _, after) => after = before

theorem Part.Allows.frame {part : Part} {before : Session} {answer : Except Raised Unit × Session}
    (h : part.Allows before answer) : part.Frame before answer.2 := by
  obtain ⟨result, after⟩ := answer
  cases result with
  | ok _ => exact Part.Changed.frame h
  | error raised =>
    have hafter : after = before := h
    rw [hafter]
    exact ⟨rfl, rfl, fun _ => rfl, fun _ => rfl, fun _ => rfl⟩

/-- A step that fails changes nothing, and one that does not changes that part. -/
def Step.Changes (step : Step) (part : Part) : Prop :=
  ∀ session values, part.Allows session (step session values)

/-! ### The steps, one by one -/

theorem addObjective_changes : Step.Changes addObjective .scoreboard := by
  intro session values
  unfold addObjective
  split
  · split
    · -- the objective is there already
      rfl
    · exact ⟨_, _, rfl⟩
  · -- values of another shape than the command declares
    rfl

theorem listObjectives_changes : Step.Changes listObjectives .nothing := by
  intro session values
  unfold listObjectives
  split
  · split <;> exact ⟨_, rfl⟩
  · rfl

theorem changeScore_allowed (session : Session) (player objective : String)
    (change : Int32 → Int32) :
    Part.scoreboard.Allows session (changeScore session player objective change) := by
  unfold changeScore
  split
  · rfl
  · exact ⟨_, _, rfl⟩

theorem setScore_changes : Step.Changes setScore .scoreboard := by
  intro session values
  unfold setScore
  split
  · exact changeScore_allowed _ _ _ _
  · rfl

theorem addScore_changes : Step.Changes addScore .scoreboard := by
  intro session values
  unfold addScore
  split
  · exact changeScore_allowed _ _ _ _
  · rfl

theorem showScore_changes : Step.Changes showScore .nothing := by
  intro session values
  unfold showScore
  split
  · split
    · -- there is no score to show
      rfl
    · exact ⟨_, rfl⟩
  · rfl

theorem teleport_changes : Step.Changes teleport .position := by
  intro session values
  unfold teleport
  split
  · exact ⟨_, _, rfl⟩
  · rfl

theorem sayMessage_changes : Step.Changes sayMessage .nothing := by
  intro session values
  unfold sayMessage
  split
  · exact ⟨_, rfl⟩
  · rfl

theorem setMode_changes : Step.Changes setMode .mode := by
  intro session values
  unfold setMode
  split
  · exact ⟨_, _, rfl⟩
  · rfl

theorem help_changes : Step.Changes help .nothing := by
  intro session values
  unfold help
  split
  · exact ⟨_, rfl⟩
  · rfl

/-! ### The commands of the tree -/

/-- A command takes a step that changes one part, and only operators may use it if that part is the
mode; or it has no action. -/
def ChangesOnePart (command : Command Source) : Prop :=
  ∀ action, command.action = some action → ∃ step part, action = onSession step ∧
    Step.Changes step part ∧ (part = .mode → command.permission = some isOperator)

theorem changesOnePart_of_step {command : Command Source} {step : Step} {part : Part}
    (haction : command.action = some (onSession step)) (hstep : step.Changes part)
    (hmode : part = .mode → command.permission = some isOperator) : ChangesOnePart command := by
  intro action h
  rw [haction] at h
  cases h
  exact ⟨step, part, rfl, hstep, hmode⟩

theorem changesOnePart_of_no_action {command : Command Source} (haction : command.action = none) :
    ChangesOnePart command := by
  intro action h
  rw [haction] at h
  cases h

/-- A node without children that takes a step. -/
theorem everywhere_of_step {command : Command Source} {step : Step} {part : Part}
    (haction : command.action = some (onSession step)) (hstep : step.Changes part)
    (hmode : part = .mode → command.permission = some isOperator) :
    (Node.command command []).Everywhere ChangesOnePart :=
  .command (changesOnePart_of_step haction hstep hmode) (List.forall_mem_nil _)

theorem objectivesNode_everywhere : objectivesNode.Everywhere ChangesOnePart := by
  refine .command (changesOnePart_of_no_action rfl) (List.forall_mem_cons.mpr ⟨?_,
    List.forall_mem_cons.mpr ⟨?_, List.forall_mem_nil _⟩⟩)
  · exact everywhere_of_step rfl addObjective_changes nofun
  · exact everywhere_of_step rfl listObjectives_changes nofun

theorem playersNode_everywhere : playersNode.Everywhere ChangesOnePart := by
  refine .command (changesOnePart_of_no_action rfl) (List.forall_mem_cons.mpr ⟨?_,
    List.forall_mem_cons.mpr ⟨?_, List.forall_mem_cons.mpr ⟨?_, List.forall_mem_nil _⟩⟩⟩)
  · exact everywhere_of_step rfl setScore_changes nofun
  · exact everywhere_of_step rfl addScore_changes nofun
  · exact everywhere_of_step rfl showScore_changes nofun

theorem registry_everywhere (limit : Option Nat) :
    (registry limit).toNode.Everywhere ChangesOnePart := by
  refine .registry (List.forall_mem_cons.mpr ⟨?_, List.forall_mem_cons.mpr ⟨?_,
    List.forall_mem_cons.mpr ⟨?_, List.forall_mem_cons.mpr ⟨?_, List.forall_mem_cons.mpr ⟨?_,
      List.forall_mem_nil _⟩⟩⟩⟩⟩)
  · exact .command (changesOnePart_of_no_action rfl) (List.forall_mem_cons.mpr
      ⟨objectivesNode_everywhere, List.forall_mem_cons.mpr
        ⟨playersNode_everywhere, List.forall_mem_nil _⟩⟩)
  · exact everywhere_of_step rfl teleport_changes nofun
  · exact everywhere_of_step rfl sayMessage_changes nofun
  · exact everywhere_of_step rfl setMode_changes fun _ => rfl
  · exact everywhere_of_step rfl help_changes nofun

/-- The part that the command at the end of a path of names may change. -/
def Part.of : List String → Part
  | ["scoreboard", "objectives", "add"] => .scoreboard
  | ["scoreboard", "players", "set"] => .scoreboard
  | ["scoreboard", "players", "add"] => .scoreboard
  | ["tp"] => .position
  | ["gamemode"] => .mode
  | _ => .nothing

/-! ### The mode -/

/-- The mode is as before, and so is the permission to change it. -/
structure SameMode (before after : Session) : Prop where
  mode : after.mode = before.mode
  operator : after.operator = before.operator

theorem SameMode.refl (s : Session) : SameMode s s := ⟨rfl, rfl⟩

theorem SameMode.trans {s t u : Session} (h : SameMode s t) (h' : SameMode t u) : SameMode s u :=
  ⟨h'.mode.trans h.mode, h'.operator.trans h.operator⟩

theorem Part.Frame.sameMode {part : Part} {before after : Session} (h : part.Frame before after)
    (hpart : part ≠ .mode) : SameMode before after := ⟨h.mode hpart, h.operator⟩

/-- A step acts on the session of its source, which holds the session as the step leaves it. -/
theorem onSession_holding (step : Step) (session : Session) (values : List Value) :
    onSession step (.holding (.session session)) values =
      ((step session values).1, .holding (.session (step session values).2)) := rfl

end TextCommand.Game
