import TextCommand.Proofs.Console.Arguments
import TextCommand.Proofs.Console.Repl

/-!
# A quiet console

Quietness only takes away what is shown.  Whatever the task, a quiet console runs the same actions, leaves
the same session, ends with the same code and shows the same errors; but it shows nothing else, and of
the error output only the warning at the end of the interactive loop is missing.  On the command
line, the option may be put in front of what is there already.
-/

namespace TextCommand.Console

open Game

/-! ### What is shown -/

namespace Emission

def isError : Emission → Bool
  | .error _ => true
  | .line _ | .prompt _ | .warning _ => false

def isWarning : Emission → Bool
  | .warning _ => true
  | .line _ | .prompt _ | .error _ => false

end Emission

/-- The errors among what is shown. -/
def errors (emissions : List Emission) : List Emission := emissions.filter Emission.isError

@[simp] theorem errors_append (front back : List Emission) :
    errors (front ++ back) = errors front ++ errors back :=
  List.filter_append front back

@[simp] theorem errors_cons_error (text : String) (emissions : List Emission) :
    errors (.error text :: emissions) = .error text :: errors emissions :=
  List.filter_cons_of_pos rfl

/-- Where nothing is a warning, the errors are the whole error output. -/
theorem diagnostics_errors {emissions : List Emission}
    (h : ∀ emission ∈ emissions, emission.isWarning = false) :
    diagnostics (errors emissions) = diagnostics emissions := by
  induction emissions with
  | nil => rfl
  | cons emission emissions ih =>
    obtain ⟨hemission, hrest⟩ := List.forall_mem_cons.mp h
    have hcons : ∀ e, diagnostics (e :: emissions) = e.diagnostic ++ diagnostics emissions :=
      fun _ => String.join_cons
    cases emission with
    | line text | prompt text =>
      rw [hcons, ← ih hrest]
      exact String.empty_append.symm
    | warning text => cases hemission
    | error text =>
      rw [hcons, ← ih hrest]
      exact String.join_cons

/-- Errors are not for the standard output. -/
theorem standards_errors (emissions : List Emission) : standards (errors emissions) = "" := by
  induction emissions with
  | nil => rfl
  | cons emission emissions ih =>
    cases emission with
    | line text | prompt text | warning text => exact ih
    | error text =>
      rw [errors_cons_error, standards, List.map_cons, String.join_cons, ← standards, ih]
      rfl

/-! ### One line -/

/-- The same setup on a quiet console. -/
def Setup.silenced (setup : Setup) : Setup := { setup with verbosity := .quiet }

variable (setup : Setup) (session : Session)

theorem errors_unlessQuiet {emission : Emission} (h : emission.isError = false)
    (verbosity : Verbosity) : errors (unlessQuiet verbosity emission) = [] := by
  unfold unlessQuiet
  split
  · rfl
  · exact List.filter_cons_of_neg (by simp [h])

theorem printed_quiet (lines : List String) : printed .quiet lines = [] := by
  simp [printed, unlessQuiet]

theorem errors_printed (verbosity : Verbosity) (lines : List String) :
    errors (printed verbosity lines) = [] := by
  induction lines with
  | nil => rfl
  | cons line lines ih =>
    rw [printed, List.flatMap_cons, errors_append, errors_unlessQuiet rfl]
    exact ih

theorem hints_silenced (input : String) : hints setup.silenced session input = [] := by
  unfold hints
  split
  · split
    · rfl
    · rfl
  · rfl

theorem errors_hints (input : String) : errors (hints setup session input) = [] := by
  unfold hints
  split
  · split
    · rfl
    · exact errors_unlessQuiet rfl _
  · rfl

/-- A run of which only the errors are shown. -/
def LineRun.silenced (run : LineRun) : LineRun := { run with emissions := errors run.emissions }

theorem runLine_silenced (input : String) :
    runLine setup.silenced session input = (runLine setup session input).silenced := by
  have hdenied : setup.silenced.registry.denied? (sourceOf session) input =
    setup.registry.denied? (sourceOf session) input := rfl
  have hrun : setup.silenced.registry.runText (sourceOf session) input =
    setup.registry.runText (sourceOf session) input := rfl
  have hverbosity : setup.silenced.verbosity = .quiet := rfl
  cases hname : setup.registry.denied? (sourceOf session) input with
  | some name =>
    rw [runLine_of_denied hname, runLine_of_denied (hdenied.trans hname)]
    rfl
  | none =>
    simp only [runLine, hname, hdenied, hrun, hverbosity, printed_quiet, hints_silenced]
    cases (setup.registry.runText (sourceOf session) input).result with
    | ok done => simp only [LineRun.silenced, errors_printed]
    | error e =>
      simp only [LineRun.silenced, errors_append, errors_printed, errors_cons_error, errors_hints]

/-- Only the end of the loop warns. -/
theorem isWarning_unlessQuiet {emission : Emission} (h : emission.isWarning = false)
    (verbosity : Verbosity) : ∀ e ∈ unlessQuiet verbosity emission, e.isWarning = false := by
  unfold unlessQuiet
  split
  · exact List.forall_mem_nil _
  · exact List.forall_mem_singleton.mpr h

theorem isWarning_printed (verbosity : Verbosity) (lines : List String) :
    ∀ e ∈ printed verbosity lines, e.isWarning = false := by
  intro e he
  obtain ⟨line, -, hline⟩ := List.mem_flatMap.mp he
  exact isWarning_unlessQuiet rfl verbosity e hline

theorem isWarning_hints (input : String) :
    ∀ e ∈ hints setup session input, e.isWarning = false := by
  unfold hints
  split
  · split
    · exact List.forall_mem_nil _
    · exact isWarning_unlessQuiet rfl _
  · exact List.forall_mem_nil _

theorem isWarning_runLine (input : String) :
    ∀ e ∈ (runLine setup session input).emissions, e.isWarning = false := by
  cases hname : setup.registry.denied? (sourceOf session) input with
  | some name =>
    rw [runLine_of_denied hname]
    exact List.forall_mem_singleton.mpr rfl
  | none =>
    simp only [runLine, hname]
    cases (setup.registry.runText (sourceOf session) input).result with
    | ok done => exact isWarning_printed _ _
    | error e =>
      exact List.forall_mem_append.mpr
        ⟨isWarning_printed _ _, List.forall_mem_cons.mpr ⟨rfl, isWarning_hints _ _ _⟩⟩

/-! ### The interactive loop -/

/-- A loop of which only the errors are shown. -/
def Loop.silenced (loop : Loop) : Loop := { loop with emissions := errors loop.emissions }

theorem errors_promptFor : errors (promptFor setup) = [] := errors_unlessQuiet rfl _

theorem step?_silenced (line : String) :
    step? setup.silenced session line = (step? setup session line).map LineRun.silenced := by
  have hprompt : promptFor setup.silenced = [] := rfl
  cases hstop : isStop line with
  | true =>
    -- the loop stops
    rw [step?, if_pos hstop, step?, if_pos hstop]
    rfl
  | false =>
    cases hblank : line.isEmpty with
    | true =>
      -- a blank line has only the prompt
      rw [step?_blank hblank, step?_blank hblank, hprompt]
      simp only [Option.map_some, LineRun.silenced, errors_promptFor]
    | false =>
      -- a line that is run
      rw [step?_run hstop hblank, step?_run hstop hblank, hprompt, runLine_silenced]
      simp only [Option.map_some, LineRun.silenced, errors_append, errors_promptFor]

theorem Loop.silenced_andThen (first second : Loop) :
    (first.andThen second).silenced = first.silenced.andThen second.silenced := by
  simp only [silenced, andThen, errors_append]

theorem next?_silenced (loop : Loop) (line : String) :
    loop.silenced.next? setup.silenced line = (loop.next? setup line).map Loop.silenced := by
  have hsession : loop.silenced.session = loop.session := rfl
  rw [Loop.next?, Loop.next?, hsession, step?_silenced]
  cases step? setup loop.session line with
  | none => rfl
  | some run => exact congrArg some (loop.silenced_andThen run.loop).symm

/-- Line by line, a quiet loop does what a loud one does. -/
theorem runLines_silenced (loop : Loop) (lines : List String) :
    runLines setup.silenced loop.silenced lines = (runLines setup loop lines).silenced := by
  induction lines generalizing loop with
  | nil => rfl
  | cons line lines ih =>
    rw [runLines, runLines, next?_silenced]
    cases loop.next? setup line with
    | none => rfl
    | some next => exact ih next

theorem isWarning_step? {run : LineRun} {line : String}
    (h : step? setup session line = some run) : ∀ e ∈ run.emissions, e.isWarning = false := by
  have hprompt : ∀ e ∈ promptFor setup, e.isWarning = false := isWarning_unlessQuiet rfl _
  unfold step? at h
  split at h
  · cases h
  · split at h
    · cases h
      exact hprompt
    · cases h
      exact List.forall_mem_append.mpr ⟨isWarning_runLine setup session line, hprompt⟩

theorem isWarning_runLines {loop : Loop} (h : ∀ e ∈ loop.emissions, e.isWarning = false)
    (lines : List String) : ∀ e ∈ (runLines setup loop lines).emissions, e.isWarning = false := by
  induction lines generalizing loop with
  | nil => exact h
  | cons line lines ih =>
    cases hrun : step? setup loop.session line with
    | none =>
      rw [runLines, Loop.next?, hrun]
      exact h
    | some run =>
      rw [runLines_of_step loop hrun]
      exact ih (List.forall_mem_append.mpr ⟨h, isWarning_step? setup loop.session hrun⟩)

theorem errors_failureWarning (verbosity : Verbosity) (failures : Nat) :
    errors (failureWarning verbosity failures) = [] := by
  unfold failureWarning
  split
  · rfl
  · split <;> exact errors_unlessQuiet rfl verbosity

theorem Loop.silenced_opened :
    (Loop.opened setup session).silenced = .opened setup.silenced session := by
  simp only [silenced, opened, errors_promptFor]
  rfl

theorem Loop.silenced_closed (loop : Loop) :
    (loop.closed setup).silenced = loop.silenced.closed setup.silenced := by
  have hwarning : failureWarning setup.silenced.verbosity loop.failures = [] := by
    rw [failureWarning_eq, if_pos (.inr rfl)]
  simp only [silenced, closed, errors_append, errors_failureWarning, hwarning]

theorem repl_silenced (stdin : String) :
    repl setup.silenced session stdin = (repl setup session stdin).silenced := by
  rw [repl, repl, Loop.silenced_closed, ← runLines_silenced, Loop.silenced_opened]

/-! ### All tasks -/

/-- A report of which only the errors are shown. -/
def Report.silenced (report : Report) : Report :=
  { report with emissions := errors report.emissions }

theorem runTask_silenced (stdin : String) (task : Task) :
    runTask setup.silenced session stdin task = (runTask setup session stdin task).silenced := by
  have hverbosity : setup.silenced.verbosity = .quiet := rfl
  have hregistry : setup.silenced.registry = setup.registry := rfl
  cases task with
  | exec input =>
    simp only [runTask, runLine_silenced]
    rfl
  | check input =>
    simp only [runTask, Report.silenced, hverbosity, hregistry]
    rw [errors_unlessQuiet rfl]
    rfl
  | suggest input =>
    simp only [runTask, hverbosity, hregistry]
    split
    · rfl
    · simp only [Report.silenced]
      rw [errors_unlessQuiet rfl]
      rfl
  | usage =>
    simp only [runTask, Report.silenced, hverbosity, hregistry]
    rw [errors_unlessQuiet rfl]
    rfl
  | repl =>
    simp only [runTask, repl_silenced]
    rfl

theorem isWarning_runTask (stdin : String) {task : Task} (h : task ≠ .repl) :
    ∀ e ∈ (runTask setup session stdin task).emissions, e.isWarning = false := by
  cases task with
  | exec input => exact isWarning_runLine setup session input
  | check input | usage => exact isWarning_unlessQuiet rfl _
  | suggest input =>
    simp only [runTask]
    split
    · exact List.forall_mem_nil _
    · exact isWarning_unlessQuiet rfl _
  | repl => exact absurd rfl h

/-- What the loop writes to the error output: the errors, and behind them the warning. -/
theorem diagnostics_repl (stdin : String) :
    diagnostics (repl setup session stdin).emissions =
      diagnostics (errors (repl setup session stdin).emissions) ++
        diagnostics (failureWarning setup.verbosity (repl setup session stdin).failures) := by
  have hprompt : ∀ e ∈ (Loop.opened setup session).emissions, e.isWarning = false :=
    isWarning_unlessQuiet rfl _
  have hfront := diagnostics_errors (isWarning_runLines setup hprompt (inputLines stdin))
  simp only [repl, Loop.closed]
  rw [diagnostics_append, ← hfront, errors_append, errors_failureWarning, List.append_nil]

/-! ### Whole runs -/

/-- What quietness does to a task: `quiet` is its report on a quiet console. -/
structure Silences (task : Task) (loud quiet : Report) : Prop where
  code : quiet.code = loud.code
  session : quiet.session = loud.session
  calls : quiet.calls = loud.calls
  errors : quiet.emissions = loud.emissions.filter Emission.isError
  standard : quiet.standardOutput = ""
  diagnostic : loud.errorOutput = quiet.errorOutput ∨
    task = .repl ∧ loud.code = 1 ∧ ∃ failures, 0 < failures ∧
      loud.errorOutput = quiet.errorOutput ++
        ("warning: " ++ toString failures ++ (if failures = 1 then " line" else " lines") ++
          " failed\n")

theorem silences_of_isWarning {loud : Report} (task : Task)
    (h : ∀ e ∈ loud.emissions, e.isWarning = false) : Silences task loud loud.silenced where
  code := rfl
  session := rfl
  calls := rfl
  errors := rfl
  standard := standards_errors _
  diagnostic := .inl (diagnostics_errors h).symm

theorem runTask_silences (stdin : String) (task : Task) :
    Silences task (runTask setup session stdin task)
      (runTask setup.silenced session stdin task) := by
  rw [runTask_silenced]
  by_cases htask : task = .repl
  · -- the loop may have its warning to lose
    subst htask
    have herrors := diagnostics_repl setup session stdin
    refine ⟨rfl, rfl, rfl, rfl, standards_errors _, ?_⟩
    rw [diagnostics_failureWarning] at herrors
    split at herrors
    · -- no warning to lose
      exact .inl (herrors.trans String.append_empty)
    · next hwarned =>
      have hfailures := (not_or.mp hwarned).1
      refine .inr ⟨rfl, ?_, _, Nat.pos_of_ne_zero hfailures, herrors⟩
      simp [runTask, Loop.report, codeOf, hfailures]
  · -- no other task warns
    exact silences_of_isWarning task (isWarning_runTask setup session stdin htask)

/-- Also where there is nothing to run because the configuration cannot be loaded. -/
theorem runInvocation_silences (invocation : Invocation) (env : Environment) (stdin : String) :
    Silences invocation.task (runInvocation invocation env stdin)
      (runInvocation { invocation with quiet := true } env stdin) := by
  unfold runInvocation
  cases Config.load invocation.config env with
  | error e =>
    have hwarning : ∀ emission ∈ [loadFailure e], emission.isWarning = false :=
      List.forall_mem_singleton.mpr rfl
    exact silences_of_isWarning invocation.task hwarning
  | ok config =>
    exact runTask_silences (invocation.setup config.settings) invocation.session stdin
      invocation.task

theorem run_of_read {arguments : List String} {invocation : Invocation}
    (h : Invocation.read arguments = .ok invocation) (env : Environment) (stdin : String) :
    run arguments env stdin = runInvocation invocation env stdin := by
  rw [run, h]

/-- **Quietness changes what is shown, never what happens.**  For every invocation, in every environment
and on every input, the quiet one ends with the same code and the same session, enters the same actions,
and writes nothing to the standard output; its error output has the same errors and lacks at most the warning
that the interactive loop ends with if lines failed.  On the command line, the option can be put in front
of all that makes sense and does not ask for it yet; and wherever it is put, if the command line is
read as before but for quietness, the two runs are related in this way. -/
theorem quietness_changes_only_output :
    (∀ (invocation : Invocation) (env : Environment) (stdin : String),
      Silences invocation.task (runInvocation invocation env stdin)
        (runInvocation { invocation with quiet := true } env stdin)) ∧
    ∀ {arguments : List String} {invocation : Invocation},
      Invocation.read arguments = .ok invocation →
      (invocation.quiet = false → ∀ option ∈ quietOptions,
        Invocation.read (option :: arguments) = .ok { invocation with quiet := true }) ∧
      ∀ quieter, Invocation.read quieter = .ok { invocation with quiet := true } →
        ∀ env stdin, Silences invocation.task (run arguments env stdin) (run quieter env stdin) := by
  refine ⟨runInvocation_silences, fun hread =>
    ⟨fun hloud option hoption => Invocation.read_quietOption hoption hread hloud, ?_⟩⟩
  intro quieter hquieter env stdin
  rw [run_of_read hread, run_of_read hquieter]
  exact runInvocation_silences _ env stdin

/-- The warning about a line that fails is missing, and its error is not. -/
theorem quiet_loop_still_fails :
    let arguments := ["repl", "--player", "steve"]
    let invocation : Invocation := ⟨none, false, false, false, "steve", .repl⟩
    let env : Environment := ⟨fun _ => none, none, fun _ => none⟩
    Invocation.read arguments = .ok invocation ∧
      Silences .repl (run arguments env "say") (run ("-q" :: arguments) env "say") := by
  intro arguments invocation env
  have hread : Invocation.read arguments = .ok invocation := by rfl
  obtain ⟨hoptions, hsilences⟩ := quietness_changes_only_output.2 hread
  exact ⟨hread, hsilences _ (hoptions rfl "-q" (by simp [quietOptions])) env "say"⟩

end TextCommand.Console
