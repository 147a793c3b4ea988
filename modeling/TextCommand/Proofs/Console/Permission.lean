import TextCommand.Console.Repl
import TextCommand.Proofs.Game.Effect
import TextCommand.Proofs.Node.Path

/-!
# Permission at the console

Before a line runs, the console asks for the first node on its path that the session may not use.
So an action is entered only if every node on the path to it may be used, however the literals are
spelled; and a session without operator permission can never change its game mode.
-/

namespace TextCommand.Console

open Game

variable {setup : Setup} {session : Session} {input : String}

/-- The source on behalf of which the lines of a session run. -/
abbrev sourceOf (session : Session) : Source := .holding (.session session)

theorem runLine_of_denied {name : String}
    (h : setup.registry.denied? (sourceOf session) input = some name) :
    runLine setup session input = ⟨false, session, [.error s!"permission denied for '{name}'"], none⟩ := by
  simp only [runLine, h]

/-- A line that is not refused is run from its start; the session keeps what the run did to it, apart
from the output that has been printed. -/
theorem runLine_of_permitted (h : setup.registry.denied? (sourceOf session) input = none) :
    (runLine setup session input).call =
        (setup.registry.runText (sourceOf session) input).call ∧
      (runLine setup session input).session =
        (((setup.registry.runText (sourceOf session) input).source.tryGetSession.getD
          session).takeOutput).2 := by
  simp only [runLine, h]
  cases (setup.registry.runText (sourceOf session) input).result <;> exact ⟨rfl, rfl⟩

/-- An action is entered by a line only if the whole path of the line may be used. -/
theorem permitted_of_call {call : Call Source} (h : (runLine setup session input).call = some call) :
    setup.registry.denied? (sourceOf session) input = none ∧
      (setup.registry.runText (sourceOf session) input).call = some call := by
  cases hdenied : setup.registry.denied? (sourceOf session) input with
  | some name =>
    rw [runLine_of_denied hdenied] at h
    cases h
  | none => exact ⟨rfl, (runLine_of_permitted hdenied).1 ▸ h⟩

/-! ### The mode of a session without operator permission -/

theorem sameMode_takeOutput (s : Session) : SameMode s s.takeOutput.2 := ⟨rfl, rfl⟩

/-- What a run leaves of a session that is not an operator's, where the path may be used. -/
theorem exists_source_sameMode {limit : Option Nat} (hoperator : session.operator = false)
    (hdenied : (Game.registry limit).denied? (sourceOf session) input = none) :
    ∃ after, ((Game.registry limit).runText (sourceOf session) input).source = sourceOf after ∧
      SameMode session after := by
  rcases Node.reaches_or_failed (Game.registry limit).toNode (sourceOf session)
      (Reader.ofString input) with ⟨head, action, values, next, hreach⟩ | ⟨-, error, hfailed⟩
  · -- an action is reached
    have hrun := hreach.run_eq (sourceOf session)
    have hcall : ((Game.registry limit).runText (sourceOf session) input).call =
        some ⟨head, values, next⟩ := Node.call_eq_some_iff.mpr ⟨action, hreach⟩
    obtain ⟨entry, hstop, haction, -⟩ := hreach
    obtain ⟨step, part, rfl, hstep, hmode⟩ := (registry_everywhere limit).of_descend hstop action haction
    -- the command that could change the mode ends the path, and refuses this session
    have hpart : part ≠ .mode := by
      intro hpart
      obtain ⟨children, hlast⟩ := Registry.getLast?_path_of_call _ _ _ hcall
      have huse := (Registry.denied?_eq_none_iff _ _ _).mp hdenied _ (List.mem_of_getLast? hlast)
      have hpermission : head.permission = some isOperator := hmode hpart
      simp only [Node.canUse, Command.canUse, hpermission, isOperator, Source.tryGetSession] at huse
      rw [hoperator] at huse
      cases huse
    refine ⟨(step session values).2, ?_, (hstep session values).frame.sameMode hpart⟩
    rw [Registry.runText, Registry.run, hrun, Node.source_restoring, onSession_holding]
  · -- the run fails on the way
    refine ⟨session, ?_, .refl session⟩
    rw [Registry.runText, Registry.run, hfailed]
    rfl

/-- One line keeps the mode of a session that is not an operator's. -/
theorem runLine_sameMode {limit : Option Nat} (hregistry : setup.registry = Game.registry limit)
    (hoperator : session.operator = false) (input : String) :
    SameMode session (runLine setup session input).session := by
  cases hdenied : setup.registry.denied? (sourceOf session) input with
  | some name =>
    rw [runLine_of_denied hdenied]
    exact .refl session
  | none =>
    rw [(runLine_of_permitted hdenied).2]
    rw [hregistry] at hdenied ⊢
    obtain ⟨after, hsource, hsame⟩ := exists_source_sameMode hoperator hdenied
    rw [hsource]
    exact hsame.trans (sameMode_takeOutput after)

/-- The session after several lines have been run one after the other. -/
def sessionAfter (setup : Setup) (session : Session) (lines : List String) : Session :=
  lines.foldl (fun s line => (runLine setup s line).session) session

theorem sessionAfter_sameMode {limit : Option Nat} (hregistry : setup.registry = Game.registry limit)
    (hoperator : session.operator = false) (lines : List String) :
    SameMode session (sessionAfter setup session lines) := by
  induction lines generalizing session with
  | nil => exact .refl session
  | cons line lines ih =>
    have hstep := runLine_sameMode hregistry hoperator line
    exact hstep.trans (ih (hstep.operator.trans hoperator))

theorem step?_sameMode {limit : Option Nat} (hregistry : setup.registry = Game.registry limit)
    (hoperator : session.operator = false) {line : String} {run : LineRun}
    (h : step? setup session line = some run) : SameMode session run.session := by
  unfold step? at h
  split at h
  · -- a line that says to stop
    cases h
  · split at h
    · -- a blank line
      cases h
      exact .refl session
    · cases h
      exact runLine_sameMode hregistry hoperator line

theorem runLines_sameMode {limit : Option Nat} (hregistry : setup.registry = Game.registry limit)
    (loop : Loop) (hoperator : loop.session.operator = false) (lines : List String) :
    SameMode loop.session (runLines setup loop lines).session := by
  induction lines generalizing loop with
  | nil => exact .refl loop.session
  | cons line lines ih =>
    rw [runLines]
    cases hnext : loop.next? setup line with
    | none => exact .refl loop.session
    | some next =>
      obtain ⟨run, hrun, rfl⟩ := Option.map_eq_some_iff.mp hnext
      have hstep : SameMode loop.session (loop.andThen run.loop).session :=
        step?_sameMode hregistry hoperator hrun
      exact hstep.trans (ih _ (hstep.operator.trans hoperator))

/-- **Permission agrees with execution.**  On every tree the check is passed if and only if every node
of the input's path may be used, and otherwise names the first that may not; a descent ends at the
last node of that path.  So a line enters the action at the end of its path only if the whole path may
be used, and no sequence of lines changes the game mode of a session that is not an operator's. -/
theorem permission_agrees_with_execution :
    (∀ {σ : Type} (registry : Registry σ) (source : σ) (input : String),
      (registry.denied? source input = none ↔
        ∀ node ∈ registry.path input, node.canUse source = true) ∧
      (∀ name, registry.denied? source input = some name ↔
        ∃ (front : List (Node σ)) (node : Node σ) (back : List (Node σ)),
          registry.path input = front ++ node :: back ∧
          (∀ earlier ∈ front, earlier.canUse source = true) ∧
          node.canUse source = false ∧ node.name = name) ∧
      ∀ stop, registry.toNode.descend (.ofString input) = .ok stop →
        ∃ children, (registry.path input).getLast? = some (.command stop.command children)) ∧
    (∀ (setup : Setup) (session : Session) (input : String) (call : Call Source),
      (runLine setup session input).call = some call →
        (∃ children, (setup.registry.path input).getLast? =
          some (.command call.command children)) ∧
        ∀ node ∈ setup.registry.path input, node.canUse (sourceOf session) = true) ∧
    (∀ (limit : Option Nat) (setup : Setup) (session : Session),
      setup.registry = Game.registry limit → session.operator = false →
        (∀ lines, (sessionAfter setup session lines).mode = session.mode) ∧
        ∀ stdin, (repl setup session stdin).session.mode = session.mode) := by
  refine ⟨fun registry source input => ⟨registry.denied?_eq_none_iff source input,
    fun name => registry.denied?_eq_some_iff source input,
    fun stop => registry.getLast?_path_of_descend input⟩, ?_, ?_⟩
  · intro setup session input call hcall
    obtain ⟨hdenied, hrun⟩ := permitted_of_call hcall
    exact ⟨setup.registry.getLast?_path_of_call _ input hrun,
      (setup.registry.denied?_eq_none_iff _ input).mp hdenied⟩
  · intro limit setup session hregistry hoperator
    exact ⟨fun lines => (sessionAfter_sameMode hregistry hoperator lines).mode,
      fun stdin => (runLines_sameMode hregistry (.opened setup session) hoperator
        (inputLines stdin)).mode⟩

/-- No spelling of the command gets a player out of survival mode. -/
theorem player_stays_in_survival :
    (repl ⟨Game.registry none, .empty, .normal⟩ (.start "steve" false)
      "gamemode creative\n \"gamemode\"  creative\n\x27gamemode\x27\tcreative").session.mode =
        .survival :=
  (permission_agrees_with_execution.2.2 none _ (.start "steve" false) rfl rfl).2 _

end TextCommand.Console
