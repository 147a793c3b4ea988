import TextCommand.Proofs.Node.Descent

/-!
# The command at the end of the descent

`Reaches` says that the descent stops at a command with an action and that its arguments can be
read there.  A run enters exactly that action, once; an input is accepted if a boundary follows
those arguments; and the suggestions are those of the same command.
-/

namespace TextCommand.Node

variable {σ : Type}

/-- The descent stops at a command with an action, and the values of its arguments can be read. -/
def Reaches (node : Node σ) (r : Reader) (command : Command σ) (action : Action σ)
    (values : List Value) (next : Reader) : Prop :=
  ∃ entry, node.descend r = .ok ⟨command, entry⟩ ∧ command.action = some action ∧
    Kind.readAll command.kinds entry = ⟨.ok values, next⟩

variable {node : Node σ} {source : σ} {r next : Reader} {head : Command σ} {action : Action σ}
  {values : List Value}

/-- The run that enters the action: it is applied to the source once, and its failure puts the
reader back. -/
theorem Reaches.run_eq (h : node.Reaches r head action values next) (source : σ) :
    node.run source r =
      (Run.mk ((action source values).1.mapError Raised.surface) next (action source values).2
        (some ⟨head, values, next⟩)).restoring r := by
  obtain ⟨entry, hstop, haction, hread⟩ := h
  rw [run_eq_descend, hstop]
  simp only [Command.run, haction, hread]

/-! ### Runs that enter no action -/

section Failures

variable {error : CommandError} {stop : Endpoint σ}

theorem run_of_descend_error (h : node.descend r = .error error) :
    node.run source r = .failed error source r := by
  rw [run_eq_descend, h]

theorem run_of_inert (hstop : node.descend r = .ok stop) (haction : stop.command.action = none) :
    node.run source r = .failed (.shape "Invalid command" stop.entry.cursor) source r := by
  rw [run_eq_descend, hstop]
  simp only [Command.run, haction]
  rfl

theorem run_of_unread (hstop : node.descend r = .ok stop) (haction : stop.command.action = some action)
    (hread : Kind.readAll stop.command.kinds stop.entry = ⟨.error error, next⟩) :
    node.run source r = .failed error source r := by
  rw [run_eq_descend, hstop]
  simp only [Command.run, haction, hread]
  rfl

end Failures

/-- A run that enters no action fails where it began, with an error that does not depend on the source,
and leaves the source alone. -/
theorem exists_run_eq_failed
    (h : ∀ head action values next, ¬ node.Reaches r head action values next) :
    ∃ error, ∀ source, node.run source r = .failed error source r := by
  cases hstop : node.descend r with
  | error error =>
    -- the descent itself fails
    exact ⟨error, fun source => run_of_descend_error hstop⟩
  | ok stop =>
    cases haction : stop.command.action with
    | none =>
      -- the command has no action
      exact ⟨_, fun source => run_of_inert hstop haction⟩
    | some action =>
      rcases hread : Kind.readAll stop.command.kinds stop.entry with ⟨error | values, next⟩
      · -- an argument cannot be read
        exact ⟨error, fun source => run_of_unread hstop haction hread⟩
      · -- all are read, and the action is reached
        exact absurd ⟨stop.entry, hstop, haction, hread⟩ (h stop.command action values next)

/-- Either way there is nothing else a run can do. -/
theorem reaches_or_failed (node : Node σ) (source : σ) (r : Reader) :
    (∃ head action values next, node.Reaches r head action values next) ∨
      (∀ head action values next, ¬ node.Reaches r head action values next) ∧
        ∃ error, node.run source r = .failed error source r := by
  by_cases h : ∃ head action values next, node.Reaches r head action values next
  · exact .inl h
  · have hnot : ∀ head action values next, ¬ node.Reaches r head action values next :=
      fun head action values next hr => h ⟨head, action, values, next, hr⟩
    obtain ⟨error, hfailed⟩ := exists_run_eq_failed hnot
    exact .inr ⟨hnot, error, hfailed source⟩

theorem call_eq_some_iff {call : Call σ} :
    (node.run source r).call = some call ↔
      ∃ action, node.Reaches r call.command action call.values call.reader := by
  constructor
  · intro hcall
    rcases reaches_or_failed node source r with ⟨head, action, values, next, h⟩ | ⟨-, error, h⟩
    · rw [h.run_eq source, call_restoring] at hcall
      cases hcall
      exact ⟨action, h⟩
    · -- a run that fails has entered none
      rw [h] at hcall
      cases hcall
  · rintro ⟨action, h⟩
    rw [h.run_eq source, call_restoring]

/-- An input is accepted if an action is reached with a boundary behind its arguments. -/
theorem accepts_eq_true_iff :
    (node.accepts r).1 = true ↔
      ∃ head action values next, node.Reaches r head action values next ∧ next.atBoundary = true := by
  rw [accepts_eq_descend]
  constructor
  · intro h
    cases hstop : node.descend r with
    | error error => simp [hstop] at h
    | ok stop =>
      rw [hstop] at h
      simp only [Command.accepts, Command.isExecutable, Bool.and_eq_true, Option.isSome_iff_exists] at h
      obtain ⟨⟨action, haction⟩, h⟩ := h
      rcases hread : Kind.readAll stop.command.kinds stop.entry with ⟨error | values, next⟩
      · simp [hread] at h
      · rw [hread] at h
        exact ⟨stop.command, action, values, next, ⟨stop.entry, hstop, haction, hread⟩, h⟩
  · rintro ⟨head, action, values, next, ⟨entry, hstop, haction, hread⟩, h⟩
    simpa [hstop, Command.accepts, Command.isExecutable, haction, hread] using h

theorem suggest_eq (node : Node σ) (source : σ) (r : Reader) :
    (node.suggest source r).1 =
      match node.descend r with
      | .ok stop =>
        if (Kind.readAll stop.command.kinds stop.entry).answer.isOk then
          (stop.command.suggestions.map (· source)).getD []
        else []
      | .error _ => [] := by
  rw [suggest_eq_descend]
  cases node.descend r with
  | error error => rfl
  | ok stop =>
    obtain ⟨head, entry⟩ := stop
    simp only [Command.suggest]
    rcases Kind.readAll head.kinds entry with ⟨error | values, next⟩
    · rfl
    · cases head.suggestions <;> rfl

/-- **The three traversals select the same endpoint.**  A run enters an action if and only if the
descent reaches it, and then it is that action, applied to the source once with the values read at
the endpoint; otherwise the source stays as it is.  It succeeds if and only if that action does.  An
input is accepted if and only if an action is reached with the end or a blank behind its arguments,
and what is suggested is what the endpoint proposes once its arguments can be read. -/
theorem traversals_select_same_endpoint (node : Node σ) (source : σ) (r : Reader) :
    (∀ call, (node.run source r).call = some call ↔
      ∃ action, node.Reaches r call.command action call.values call.reader) ∧
    (∀ head action values next, node.Reaches r head action values next →
      (node.run source r).call = some ⟨head, values, next⟩ ∧
      (node.run source r).source = (action source values).2 ∧
      (node.run source r).result = (action source values).1.mapError Raised.surface) ∧
    ((node.run source r).call = none → (node.run source r).source = source) ∧
    ((node.run source r).result = .ok () ↔
      ∃ head action values next, node.Reaches r head action values next ∧
        (action source values).1 = .ok ()) ∧
    ((node.accepts r).1 = true ↔
      ∃ head action values next, node.Reaches r head action values next ∧
        next.atBoundary = true) ∧
    (node.suggest source r).1 =
      match node.descend r with
      | .ok stop =>
        if (Kind.readAll stop.command.kinds stop.entry).answer.isOk then
          (stop.command.suggestions.map (· source)).getD []
        else []
      | .error _ => [] := by
  refine ⟨fun call => call_eq_some_iff, ?_, ?_, ?_, accepts_eq_true_iff, suggest_eq node source r⟩
  · intro head action values next h
    rw [h.run_eq source]
    simp
  · intro hnone
    rcases reaches_or_failed node source r with ⟨head, action, values, next, h⟩ | ⟨-, error, h⟩
    · rw [h.run_eq source, call_restoring] at hnone
      cases hnone
    · rw [h]
      rfl
  · constructor
    · intro hok
      rcases reaches_or_failed node source r with ⟨head, action, values, next, h⟩ | ⟨-, error, h⟩
      · refine ⟨head, action, values, next, h, ?_⟩
        rw [h.run_eq source, result_restoring] at hok
        cases hresult : (action source values).1 with
        | ok _ => rfl
        | error raised =>
          rw [hresult] at hok
          cases hok
      · -- a run that enters no action fails
        rw [h] at hok
        cases hok
    · rintro ⟨head, action, values, next, h, hok⟩
      rw [h.run_eq source, result_restoring, hok]
      rfl

end TextCommand.Node
