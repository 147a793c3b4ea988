import TextCommand.Proofs.Game.Effect
import TextCommand.Proofs.Game.Scoreboard
import TextCommand.Proofs.Node.Path

/-!
# The ledger that a session keeps

Three commands write to the scoreboard.  A line that enters one of them makes an entry, told by the
names on the path of the line and by the values that the command was given; the command succeeds
exactly if the scoreboard admits the entry.  No other line writes there, whatever it runs.  So the
scoreboard of a session that began afresh is the sum of its entries, however many lines have been
run and failed in between.
-/

namespace TextCommand.Game

/-! ### The entry of a command -/

def Entry.ofCreate? : List Value → Option Entry
  | [.text objective] => some (.create objective)
  | _ => none

def Entry.ofScore? (change : Int32 → Change) : List Value → Option Entry
  | [.text player, .text objective, .int n] => some (.score player objective (change n))
  | _ => none

/-- The entry that a command makes with some values, by the names on the way to it. -/
def Entry.of? : List String → List Value → Option Entry
  | ["scoreboard", "objectives", "add"] => ofCreate?
  | ["scoreboard", "players", "set"] => ofScore? .set
  | ["scoreboard", "players", "add"] => ofScore? .add
  | _ => fun _ => none

/-- With an entry, a step makes of the scoreboard what the entry makes of it, and succeeds exactly if it
is admitted; without one, it leaves the scoreboard alone. -/
structure Step.Enters (step : Step) (entryOf? : List Value → Option Entry) : Prop where
  entered : ∀ session values entry, entryOf? values = some entry →
    (step session values).1.isOk = (session.scoreboard.enter? entry).isSome ∧
      (step session values).2.scoreboard = session.scoreboard.enter entry
  silent : ∀ session values, entryOf? values = none →
    (step session values).2.scoreboard = session.scoreboard

theorem addObjective_enters : Step.Enters addObjective Entry.ofCreate? where
  entered := by
    intro session values entry hentry
    unfold Entry.ofCreate? at hentry
    split at hentry
    · next objective =>
      cases hentry
      simp only [addObjective, Scoreboard.enter, Scoreboard.enter?]
      cases session.scoreboard.addObjective? objective <;> exact ⟨rfl, rfl⟩
    · cases hentry
  silent := by
    intro session values hentry
    unfold addObjective
    split
    · cases hentry
    · rfl

theorem changeScore_enters (session : Session) (player objective : String) (change : Change) :
    let answer := changeScore session player objective change.apply
    let entry := Entry.score player objective change
    answer.1.isOk = (session.scoreboard.enter? entry).isSome ∧
      answer.2.scoreboard = session.scoreboard.enter entry := by
  simp only [changeScore, Scoreboard.enter, Scoreboard.enter?]
  cases session.scoreboard.update? player objective change.apply <;> exact ⟨rfl, rfl⟩

/-- A step that changes the score of the pair it is given, and refuses any other values. -/
theorem enters_of_changeScore {step : Step} {change : Int32 → Change}
    (hscore : ∀ session player objective n, step session [.text player, .text objective, .int n] =
      changeScore session player objective (change n).apply)
    (hother : ∀ session values, Entry.ofScore? change values = none →
      step session values = misdeclared session values) :
    step.Enters (Entry.ofScore? change) where
  entered := by
    intro session values entry hentry
    unfold Entry.ofScore? at hentry
    split at hentry
    · cases hentry
      rw [hscore]
      exact changeScore_enters session _ _ _
    · cases hentry
  silent := by
    intro session values hentry
    rw [hother session values hentry]
    rfl

theorem setScore_enters : Step.Enters setScore (Entry.ofScore? .set) := by
  refine enters_of_changeScore (fun _ _ _ _ => rfl) ?_
  intro session values hentry
  unfold setScore
  split
  · cases hentry
  · rfl

theorem addScore_enters : Step.Enters addScore (Entry.ofScore? .add) := by
  refine enters_of_changeScore (fun _ _ _ _ => rfl) ?_
  intro session values hentry
  unfold addScore
  split
  · cases hentry
  · rfl

theorem Step.Changes.enters {step : Step} {part : Part} (h : step.Changes part)
    (hpart : part ≠ .scoreboard) : step.Enters fun _ => none where
  entered _ _ _ hentry := by cases hentry
  silent session values _ := (h session values).frame.scoreboard hpart

/-! ### The commands of the tree -/

/-- A command takes a step that changes the part and enters what the names on the way to it say; or it
has no action. -/
def KeepsLedger (names : List String) (command : Command Source) : Prop :=
  ∀ action, command.action = some action → ∃ step, action = onSession step ∧
    step.Changes (Part.of names) ∧ step.Enters (Entry.of? names)

theorem keepsLedger_of_no_action {names : List String} {command : Command Source}
    (haction : command.action = none) : KeepsLedger names command := by
  intro action h
  rw [haction] at h
  cases h

/-- A node without children that takes a step. -/
theorem everywhereAt_of_step {names : List String} {command : Command Source} {step : Step}
    (haction : command.action = some (onSession step)) (hchanges : step.Changes (Part.of names))
    (henters : step.Enters (Entry.of? names)) :
    Node.EverywhereAt KeepsLedger names (.command command []) := by
  refine .command ?_ (List.forall_mem_nil _)
  intro action h
  rw [haction] at h
  cases h
  exact ⟨step, rfl, hchanges, henters⟩

theorem objectivesNode_keepsLedger :
    Node.EverywhereAt KeepsLedger ["scoreboard", "objectives"] objectivesNode := by
  refine .command (keepsLedger_of_no_action rfl) (List.forall_mem_cons.mpr ⟨?_,
    List.forall_mem_cons.mpr ⟨?_, List.forall_mem_nil _⟩⟩)
  · exact everywhereAt_of_step rfl addObjective_changes addObjective_enters
  · exact everywhereAt_of_step rfl listObjectives_changes (listObjectives_changes.enters nofun)

theorem playersNode_keepsLedger :
    Node.EverywhereAt KeepsLedger ["scoreboard", "players"] playersNode := by
  refine .command (keepsLedger_of_no_action rfl) (List.forall_mem_cons.mpr ⟨?_,
    List.forall_mem_cons.mpr ⟨?_, List.forall_mem_cons.mpr ⟨?_, List.forall_mem_nil _⟩⟩⟩)
  · exact everywhereAt_of_step rfl setScore_changes setScore_enters
  · exact everywhereAt_of_step rfl addScore_changes addScore_enters
  · exact everywhereAt_of_step rfl showScore_changes (showScore_changes.enters nofun)

theorem registry_keepsLedger (limit : Option Nat) :
    Node.EverywhereAt KeepsLedger [] (registry limit).toNode := by
  refine .registry (List.forall_mem_cons.mpr ⟨?_, List.forall_mem_cons.mpr ⟨?_,
    List.forall_mem_cons.mpr ⟨?_, List.forall_mem_cons.mpr ⟨?_, List.forall_mem_cons.mpr ⟨?_,
      List.forall_mem_nil _⟩⟩⟩⟩⟩)
  · exact .command (keepsLedger_of_no_action rfl) (List.forall_mem_cons.mpr
      ⟨objectivesNode_keepsLedger, List.forall_mem_cons.mpr
        ⟨playersNode_keepsLedger, List.forall_mem_nil _⟩⟩)
  · exact everywhereAt_of_step rfl teleport_changes (teleport_changes.enters nofun)
  · exact everywhereAt_of_step rfl sayMessage_changes (sayMessage_changes.enters nofun)
  · exact everywhereAt_of_step rfl setMode_changes (setMode_changes.enters nofun)
  · exact everywhereAt_of_step rfl help_changes (help_changes.enters nofun)

/-! ### One line -/

/-- Runs one line on behalf of a session. -/
def runLine (limit : Option Nat) (session : Session) (line : String) : Run Source :=
  (registry limit).runText (.holding (.session session)) line

/-- The entry that a line makes, if it enters a command that makes one. -/
def entered? (limit : Option Nat) (session : Session) (line : String) : Option Entry :=
  (runLine limit session line).call.bind fun call =>
    Entry.of? (((registry limit).path line).map Node.name) call.values

variable {limit : Option Nat} {session : Session} {line : String}

/-- A line enters no command and fails, or it takes the step of the command at the end of its path. -/
theorem runLine_cases (limit : Option Nat) (session : Session) (line : String) :
    ((runLine limit session line).call = none ∧
      (runLine limit session line).result.isOk = false ∧
      (runLine limit session line).source = .holding (.session session)) ∨
    ∃ (call : Call Source) (step : Step), (runLine limit session line).call = some call ∧
      step.Changes (Part.of (((registry limit).path line).map Node.name)) ∧
      step.Enters (Entry.of? (((registry limit).path line).map Node.name)) ∧
      (runLine limit session line).result.isOk = (step session call.values).1.isOk ∧
      (runLine limit session line).source = .holding (.session (step session call.values).2) := by
  rcases Node.reaches_or_failed (registry limit).toNode (.holding (.session session))
      (Reader.ofString line) with ⟨head, action, values, next, hreach⟩ | ⟨-, error, hfailed⟩
  · -- an action is reached
    have hrun : runLine limit session line = _ := hreach.run_eq (.holding (.session session))
    obtain ⟨entry, hstop, haction, -⟩ := hreach
    -- the names on the way start from none at the registry
    have hkeeps := (registry_keepsLedger limit).of_descend hstop
    rw [List.nil_append] at hkeeps
    obtain ⟨step, rfl, hchanges, henters⟩ := hkeeps action haction
    refine .inr ⟨⟨head, values, next⟩, step, ?_, hchanges, henters, ?_, ?_⟩
    · rw [hrun, Node.call_restoring]
    · rw [hrun, Node.result_restoring, onSession_holding]
      cases (step session values).1 <;> rfl
    · rw [hrun, Node.source_restoring, onSession_holding]
  · -- the run fails on the way
    have hrun : runLine limit session line = _ := hfailed
    rw [hrun]
    exact .inl ⟨rfl, rfl, rfl⟩

/-- The session after a line. -/
def afterLine (limit : Option Nat) (session : Session) (line : String) : Session :=
  (runLine limit session line).source.tryGetSession.getD session

/-- The source goes on holding a session. -/
theorem runLine_source (limit : Option Nat) (session : Session) (line : String) :
    (runLine limit session line).source = .holding (.session (afterLine limit session line)) := by
  unfold afterLine
  rcases runLine_cases limit session line with ⟨-, -, hsource⟩ | ⟨call, step, -, -, -, -, hsource⟩ <;>
    rw [hsource] <;> rfl

theorem afterLine_eq_of_source {after : Session}
    (h : (runLine limit session line).source = .holding (.session after)) :
    afterLine limit session line = after := by
  rw [afterLine, h]
  rfl

/-- A line that fails changes nothing, and one that succeeds says one line and changes at most the part
that the names on its path tell. -/
theorem afterLine_allowed (limit : Option Nat) (session : Session) (line : String) :
    ((runLine limit session line).result.isOk = false ∧ afterLine limit session line = session) ∨
    ((runLine limit session line).result.isOk = true ∧
      (Part.of (((registry limit).path line).map Node.name)).Changed session
        (afterLine limit session line)) := by
  rcases runLine_cases limit session line with
    ⟨-, hok, hsource⟩ | ⟨call, step, -, hchanges, -, hok, hsource⟩
  · exact .inl ⟨hok, afterLine_eq_of_source hsource⟩
  · have hallows := hchanges session call.values
    rw [afterLine_eq_of_source hsource, hok]
    generalize step session call.values = answer at hallows
    rcases answer with ⟨raised | _, after⟩
    · -- the step fails
      exact .inl ⟨rfl, hallows⟩
    · -- the step succeeds
      exact .inr ⟨rfl, hallows⟩

theorem afterLine_eq_of_failed (h : (runLine limit session line).result.isOk = false) :
    afterLine limit session line = session := by
  rcases afterLine_allowed limit session line with ⟨-, hafter⟩ | ⟨hok, -⟩
  · exact hafter
  · rw [h] at hok
    cases hok

theorem scoreboard_afterLine_of_silent (h : entered? limit session line = none) :
    (afterLine limit session line).scoreboard = session.scoreboard := by
  unfold entered? at h
  rcases runLine_cases limit session line with
    ⟨-, -, hsource⟩ | ⟨call, step, hcall, -, henters, -, hsource⟩
  · rw [afterLine_eq_of_source hsource]
  · rw [hcall, Option.bind_some] at h
    rw [afterLine_eq_of_source hsource, henters.silent session call.values h]

/-- The line of an entry succeeds if the entry is admitted, and does to the scoreboard what it says. -/
theorem afterLine_of_entered? {entry : Entry} (h : entered? limit session line = some entry) :
    (runLine limit session line).result.isOk = (session.scoreboard.enter? entry).isSome ∧
      (afterLine limit session line).scoreboard = session.scoreboard.enter entry := by
  unfold entered? at h
  rcases runLine_cases limit session line with
    ⟨hcall, -, -⟩ | ⟨call, step, hcall, -, henters, hok, hsource⟩
  · -- no call, no entry
    rw [hcall] at h
    cases h
  · rw [hcall, Option.bind_some] at h
    rw [afterLine_eq_of_source hsource, hok]
    exact henters.entered session call.values entry h

theorem isOk_iff_admits {entry : Entry} (h : entered? limit session line = some entry) :
    (runLine limit session line).result.isOk = true ↔ session.scoreboard.Admits entry := by
  rw [(afterLine_of_entered? h).1, Scoreboard.isSome_enter?_iff]

theorem scoreboard_afterLine {entry : Entry} (h : entered? limit session line = some entry) :
    (afterLine limit session line).scoreboard = session.scoreboard.enter entry :=
  (afterLine_of_entered? h).2

theorem mem_objectives_afterLine {objective : String}
    (h : objective ∈ session.scoreboard.objectives) :
    objective ∈ (afterLine limit session line).scoreboard.objectives := by
  cases hentry : entered? limit session line with
  | none => rwa [scoreboard_afterLine_of_silent hentry]
  | some entry =>
    rw [scoreboard_afterLine hentry]
    exact Scoreboard.mem_objectives_enter.mpr (.inl h)

theorem score?_afterLine {player objective : String}
    (h : ∀ change, entered? limit session line ≠ some (.score player objective change)) :
    (afterLine limit session line).scoreboard.score? player objective =
      session.scoreboard.score? player objective := by
  cases hentry : entered? limit session line with
  | none => rw [scoreboard_afterLine_of_silent hentry]
  | some entry =>
    rw [scoreboard_afterLine hentry]
    refine Scoreboard.score?_enter_of_changeOf? ?_
    cases hchange : entry.changeOf? player objective with
    | none => rfl
    | some change =>
      rw [Entry.changeOf?_eq_some_iff.mp hchange] at hentry
      exact absurd hentry (h change)

/-! ### Many lines -/

/-- A session, and the entries that its lines have made. -/
structure Play where
  session : Session
  history : List Event

def Play.next (limit : Option Nat) (play : Play) (line : String) : Play where
  session := afterLine limit play.session line
  history := play.history ++ ((entered? limit play.session line).map fun entry =>
    ⟨entry, (runLine limit play.session line).result.isOk⟩).toList

/-- The lines run one after the other on one session. -/
def play (limit : Option Nat) (session : Session) (lines : List String) : Play :=
  lines.foldl (Play.next limit) ⟨session, []⟩

theorem balanced_next {play : Play} (h : Balanced play.session.scoreboard play.history)
    (limit : Option Nat) (line : String) :
    Balanced (play.next limit line).session.scoreboard (play.next limit line).history := by
  unfold Play.next
  cases hentry : entered? limit play.session line with
  | none =>
    rw [scoreboard_afterLine_of_silent hentry]
    simpa using h
  | some entry =>
    rw [scoreboard_afterLine hentry]
    exact h.snoc (isOk_iff_admits hentry)

theorem balanced_foldl {start : Play} (h : Balanced start.session.scoreboard start.history)
    (limit : Option Nat) (lines : List String) :
    Balanced (lines.foldl (Play.next limit) start).session.scoreboard
      (lines.foldl (Play.next limit) start).history := by
  induction lines generalizing start with
  | nil => exact h
  | cons line lines ih => exact ih (balanced_next h limit line)

/-- **The scoreboard is an exact ledger.**  After any lines run on a fresh session, the scoreboard is
the replay of the entries that they made: an objective is there if and only if one was entered to
create it, a pair has a score if and only if its objective is there and some change of it succeeded,
and then the score is what these changes make of zero, in exact arithmetic held at the ends of the
range; the objectives increase in the order of their bytes.  Whatever line comes next, its entry
succeeds exactly if the objective is new or, for a score, if it exists; a line that fails changes
nothing; no objective goes away, and no score changes but that of the pair entered. -/
theorem scoreboard_is_ledger (limit : Option Nat) (name : String) (operator : Bool)
    (lines : List String) :
    let now := play limit (.start name operator) lines
    let board := now.session.scoreboard
    board = .replay (now.history.map Event.entry) ∧
    (∀ objective, objective ∈ board.objectives ↔
      ∃ event ∈ now.history, event.entry = .create objective) ∧
    (∀ player objective n, board.score? player objective = some n ↔
      objective ∈ board.objectives ∧ changesOf player objective now.history ≠ [] ∧
        n.toInt = (changesOf player objective now.history).foldl
          (fun n change => change.applyInt n) 0) ∧
    Increasing board.objectives ∧
    ∀ line,
      let run := runLine limit now.session line
      let after := afterLine limit now.session line
      run.source = .holding (.session after) ∧
      (run.result.isOk = false → after = now.session) ∧
      (∀ objective, entered? limit now.session line = some (.create objective) →
        (run.result.isOk = true ↔ objective ∉ board.objectives)) ∧
      (∀ player objective change,
        entered? limit now.session line = some (.score player objective change) →
          (run.result.isOk = true ↔ objective ∈ board.objectives)) ∧
      (∀ objective ∈ board.objectives, objective ∈ after.scoreboard.objectives) ∧
      ∀ player objective,
        (∀ change, entered? limit now.session line ≠ some (.score player objective change)) →
          after.scoreboard.score? player objective = board.score? player objective := by
  intro now board
  have hnow : Balanced board now.history := balanced_foldl .nil limit lines
  refine ⟨hnow.replayed, hnow.created, ?_, hnow.increasing, ?_⟩
  · intro player objective n
    have hchanged := hnow.changed player objective
    constructor
    · intro hscore
      exact ⟨hnow.scored player objective n hscore,
        Change.total?_eq_some_iff.mp (hchanged.symm.trans hscore)⟩
    · rintro ⟨-, htotal⟩
      exact hchanged.trans (Change.total?_eq_some_iff.mpr htotal)
  · intro line run after
    exact ⟨runLine_source limit now.session line, afterLine_eq_of_failed,
      fun objective => isOk_iff_admits, fun player objective change => isOk_iff_admits,
      fun objective => mem_objectives_afterLine, fun player objective => score?_afterLine⟩

example :
    (play none (.start "alex" false)
      ["scoreboard objectives add kills", "scoreboard players set steve deaths 1"]).history =
      [⟨.create "kills", true⟩, ⟨.score "steve" "deaths" (.set 1), false⟩] := by
  cbv

end TextCommand.Game
