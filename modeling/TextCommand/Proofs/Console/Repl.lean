import TextCommand.Console.Run
import TextCommand.Proofs.Console.Lines
import TextCommand.Proofs.Console.Permission

/-!
# The interactive loop runs its lines in order

The loop visits its lines up to the first that says to stop.  A blank line does nothing; any other is
run on the session that the one before it left; and the prompt comes after each of them.  So the
loop over one text and then another is the loop over the first, followed by the loop over the second.
-/

namespace TextCommand.Console

open Game

variable {setup : Setup} {session : Session} {line : String} {lines : List String}

/-! ### One line after the other -/

/-- The lines in front of the first that says to stop. -/
def reached (lines : List String) : List String := lines.takeWhile fun line => !isStop line

theorem isStop_iff : isStop line = true ↔ line = "exit" ∨ line = "quit" := by
  simp only [isStop, Bool.or_eq_true, beq_iff_eq]

theorem isStop_eq_false_of_not_mem (hexit : "exit" ∉ lines) (hquit : "quit" ∉ lines) :
    ∀ line ∈ lines, isStop line = false := by
  intro line hline
  rw [Bool.eq_false_iff, Ne, isStop_iff]
  rintro (rfl | rfl)
  · exact hexit hline
  · exact hquit hline

theorem reached_eq (lines : List String) :
    reached lines = lines.takeWhile fun line => line ≠ "exit" ∧ line ≠ "quit" := by
  have hstop : (fun line => !isStop line) = fun line => decide (line ≠ "exit" ∧ line ≠ "quit") := by
    funext line
    rw [Bool.eq_iff_iff, Bool.not_eq_true', Bool.eq_false_iff, Ne, isStop_iff, decide_eq_true_eq,
      not_or]
  rw [reached, hstop]

/-- The runs of several lines on one session. -/
def lineRuns (setup : Setup) : Session → List String → List LineRun
  | _, [] => []
  | session, line :: lines =>
    let run := runLine setup session line
    run :: lineRuns setup run.session lines

/-- What comes of each line: a run, or nothing if the line is blank. -/
def visits (setup : Setup) : Session → List String → List (Option LineRun)
  | _, [] => []
  | session, line :: lines =>
    if line.isEmpty then none :: visits setup session lines
    else
      let run := runLine setup session line
      some run :: visits setup run.session lines

/-- What is shown of a visit, in front of the prompt. -/
def shown (visit : Option LineRun) : List Emission := visit.elim [] LineRun.emissions

/-- The lines that are run. -/
def commands (lines : List String) : List String := lines.filter (· ≠ "")

theorem commands_cons_blank (h : line.isEmpty = true) : commands (line :: lines) = commands lines :=
  List.filter_cons_of_neg (by simpa using h)

theorem commands_cons_run (h : line.isEmpty = false) :
    commands (line :: lines) = line :: commands lines :=
  List.filter_cons_of_pos (by simpa using h)

/-- The runs are those of the lines that are not blank. -/
theorem visits_filterMap (setup : Setup) (session : Session) (lines : List String) :
    (visits setup session lines).filterMap id = lineRuns setup session (commands lines) := by
  induction lines generalizing session with
  | nil => rfl
  | cons line lines ih =>
    cases hblank : line.isEmpty with
    | true =>
      rw [visits, if_pos hblank, commands_cons_blank hblank]
      exact ih session
    | false =>
      rw [visits, if_neg (by simp [hblank]), commands_cons_run hblank]
      exact congrArg (runLine setup session line :: ·) (ih _)

/-! ### The loop -/

theorem Loop.andThen_assoc (first second third : Loop) :
    (first.andThen second).andThen third = first.andThen (second.andThen third) := by
  simp only [andThen, Nat.add_assoc, List.append_assoc]

theorem step?_blank (h : line.isEmpty = true) :
    step? setup session line = some ⟨true, session, promptFor setup, none⟩ := by
  have hline : line = "" := by simpa using h
  rw [step?, if_pos h, hline]
  exact if_neg (by decide)

theorem step?_run (hstop : isStop line = false) (hblank : line.isEmpty = false) :
    step? setup session line =
      some { runLine setup session line with
        emissions := (runLine setup session line).emissions ++ promptFor setup } := by
  rw [step?, if_neg (by simp [hstop]), if_neg (by simp [hblank])]

theorem step?_stop (h : isStop line = true) : step? setup session line = none := by
  rw [step?, if_pos h]

theorem exists_step?_eq_some (setup : Setup) (session : Session) (h : isStop line = false) :
    ∃ run, step? setup session line = some run := by
  cases hblank : line.isEmpty with
  | true => exact ⟨_, step?_blank hblank⟩
  | false => exact ⟨_, step?_run h hblank⟩

theorem runLines_of_stop (loop : Loop) (h : isStop line = true) :
    runLines setup loop (line :: lines) = loop := by
  rw [runLines, Loop.next?, step?_stop h]
  rfl

theorem runLines_of_step (loop : Loop) {run : LineRun}
    (h : step? setup loop.session line = some run) :
    runLines setup loop (line :: lines) = runLines setup (loop.andThen run.loop) lines := by
  rw [runLines, Loop.next?, h]
  rfl

/-- A loop over lines none of which says to stop can be taken up where it ends. -/
theorem runLines_append (loop : Loop) {front : List String} (h : ∀ line ∈ front, isStop line = false)
    (back : List String) :
    runLines setup loop (front ++ back) = runLines setup (runLines setup loop front) back := by
  induction front generalizing loop with
  | nil => rfl
  | cons line front ih =>
    obtain ⟨hline, hfront⟩ := List.forall_mem_cons.mp h
    obtain ⟨run, hrun⟩ := exists_step?_eq_some setup loop.session hline
    rw [List.cons_append, runLines_of_step loop hrun, runLines_of_step loop hrun, ih _ hfront]

/-- The loop over lines none of which says to stop, by itself: its visits, with the prompt behind
each. -/
def stretch (setup : Setup) (session : Session) (lines : List String) : Loop :=
  let runs := lineRuns setup session (commands lines)
  { session := sessionAfter setup session (commands lines)
    failures := runs.countP fun run => !run.succeeded
    emissions := (visits setup session lines).flatMap fun visit => shown visit ++ promptFor setup
    calls := runs.flatMap fun run => run.call.toList }

theorem andThen_stretch_nil (loop : Loop) : loop.andThen (stretch setup loop.session []) = loop := by
  simp [Loop.andThen, stretch, sessionAfter, lineRuns, visits, commands]

theorem stretch_cons (hstop : isStop line = false) {run : LineRun}
    (h : step? setup session line = some run) :
    stretch setup session (line :: lines) = run.loop.andThen (stretch setup run.session lines) := by
  cases hblank : line.isEmpty with
  | true =>
    obtain rfl := Option.some.inj ((step?_blank hblank).symm.trans h)
    simp [stretch, LineRun.loop, Loop.andThen, visits, shown, hblank, commands_cons_blank hblank]
  | false =>
    obtain rfl := Option.some.inj ((step?_run hstop hblank).symm.trans h)
    simp only [stretch, LineRun.loop, Loop.andThen, visits, shown, lineRuns, sessionAfter, hblank,
      commands_cons_run hblank, List.foldl_cons, List.flatMap_cons, Option.elim_some,
      Bool.false_eq_true, if_false, List.countP_cons, Loop.mk.injEq, true_and, and_true]
    cases (runLine setup session line).succeeded <;> simp [Nat.add_comm]

/-- What the loop does with more lines comes behind what it has done, and is fixed by the session that it has
got to. -/
theorem runLines_eq (loop : Loop) (lines : List String) :
    runLines setup loop lines = loop.andThen (stretch setup loop.session (reached lines)) := by
  induction lines generalizing loop with
  | nil => exact (andThen_stretch_nil loop).symm
  | cons line lines ih =>
    cases hstop : isStop line with
    | true =>
      have hreached : reached (line :: lines) = [] := List.takeWhile_cons_of_neg (by simp [hstop])
      rw [runLines_of_stop loop hstop, hreached, andThen_stretch_nil]
    | false =>
      have hreached : reached (line :: lines) = line :: reached lines :=
        List.takeWhile_cons_of_pos (by simp [hstop])
      obtain ⟨run, hrun⟩ := exists_step?_eq_some setup loop.session hstop
      rw [runLines_of_step loop hrun, ih, hreached, stretch_cons hstop hrun, Loop.andThen_assoc]
      rfl

/-- A console that has shown what the loop emitted may go on without it. -/
theorem runLines_shown (loop : Loop) (lines : List String) :
    runLines setup loop lines =
      { runLines setup loop.shown lines with
        emissions := loop.emissions ++ (runLines setup loop.shown lines).emissions
        calls := loop.calls ++ (runLines setup loop.shown lines).calls } := by
  rw [runLines_eq loop, runLines_eq loop.shown]
  rfl

/-! ### What is printed -/

/-- What goes to the standard output. -/
def standards (emissions : List Emission) : String :=
  String.join (emissions.map Emission.standard)

/-- What goes to the error output. -/
def diagnostics (emissions : List Emission) : String :=
  String.join (emissions.map Emission.diagnostic)

theorem standards_append (front back : List Emission) :
    standards (front ++ back) = standards front ++ standards back := by
  rw [standards, List.map_append, String.join_append]
  rfl

theorem diagnostics_append (front back : List Emission) :
    diagnostics (front ++ back) = diagnostics front ++ diagnostics back := by
  rw [diagnostics, List.map_append, String.join_append]
  rfl

theorem standards_flatMap {α : Type} (items : List α) (emitted : α → List Emission) :
    standards (items.flatMap emitted) = String.join (items.map fun item => standards (emitted item)) := by
  induction items with
  | nil => rfl
  | cons item items ih =>
    rw [List.flatMap_cons, standards_append, ih, List.map_cons, String.join_cons]

theorem diagnostics_flatMap {α : Type} (items : List α) (emitted : α → List Emission) :
    diagnostics (items.flatMap emitted) =
      String.join (items.map fun item => diagnostics (emitted item)) := by
  induction items with
  | nil => rfl
  | cons item items ih =>
    rw [List.flatMap_cons, diagnostics_append, ih, List.map_cons, String.join_cons]

/-- The warning counts the lines that failed. -/
theorem failureWarning_eq (verbosity : Verbosity) (failures : Nat) :
    failureWarning verbosity failures =
      if failures = 0 ∨ verbosity = .quiet then []
      else [.warning (toString failures ++ if failures = 1 then " line failed" else " lines failed")] := by
  unfold failureWarning unlessQuiet
  by_cases hzero : failures = 0
  · rw [if_pos hzero, if_pos (.inl hzero)]
  · by_cases hquiet : verbosity = .quiet
    · rw [if_neg hzero, if_pos hquiet, if_pos hquiet, ite_self, if_pos (.inr hquiet)]
    · rw [if_neg hzero, if_neg hquiet, if_neg hquiet, if_neg (not_or.mpr ⟨hzero, hquiet⟩)]
      by_cases hone : failures = 1
      · subst hone
        rfl
      · rw [if_neg hone, if_neg hone]
        rfl

theorem countP_failed_eq_zero_iff (runs : List LineRun) :
    (runs.countP fun run => !run.succeeded) = 0 ↔ ∀ run ∈ runs, run.succeeded = true := by
  simp [List.countP_eq_zero]

theorem promptFor_eq (setup : Setup) :
    promptFor setup = if setup.verbosity = .quiet then [] else [.prompt setup.settings.prompt] := rfl

theorem standards_promptFor (setup : Setup) :
    standards (promptFor setup) = if setup.verbosity = .quiet then "" else setup.settings.prompt := by
  rw [promptFor_eq]
  split
  · rfl
  · exact String.empty_append

theorem diagnostics_promptFor (setup : Setup) : diagnostics (promptFor setup) = "" := by
  rw [promptFor_eq]
  split <;> rfl

theorem standards_failureWarning (verbosity : Verbosity) (failures : Nat) :
    standards (failureWarning verbosity failures) = "" := by
  rw [failureWarning_eq]
  split <;> rfl

theorem diagnostics_failureWarning (verbosity : Verbosity) (failures : Nat) :
    diagnostics (failureWarning verbosity failures) =
      if failures = 0 ∨ verbosity = .quiet then ""
      else "warning: " ++ toString failures ++ (if failures = 1 then " line" else " lines") ++
        " failed\n" := by
  have hsingle : ∀ text, diagnostics [.warning text] = "warning: " ++ text ++ "\n" := fun _ =>
    String.empty_append
  rw [failureWarning_eq]
  split
  · rfl
  · rw [hsingle]
    by_cases hone : failures = 1 <;> simp [hone, String.append_assoc]

/-! ### The whole input -/

/-- A loop between the first prompt and the warning. -/
def Loop.framed (setup : Setup) (loop : Loop) : Loop :=
  { loop with
    emissions := promptFor setup ++ loop.emissions ++ failureWarning setup.verbosity loop.failures }

theorem Loop.closed_opened (setup : Setup) (session : Session) (loop : Loop) :
    ((Loop.opened setup session).andThen loop).closed setup = loop.framed setup := by
  simp only [closed, andThen, opened, framed, Nat.zero_add, List.nil_append]

theorem repl_eq (setup : Setup) (session : Session) (stdin : String) :
    repl setup session stdin =
      (stretch setup session (reached (inputLines stdin))).framed setup := by
  rw [repl, runLines_eq, Loop.closed_opened]
  rfl

theorem runTask_repl (setup : Setup) (session : Session) (stdin : String) :
    runTask setup session stdin .repl =
      ((stretch setup session (reached (inputLines stdin))).framed setup).report := by
  rw [runTask, repl_eq]

theorem Loop.code_report_eq_zero_iff (loop : Loop) : loop.report.code = 0 ↔ loop.failures = 0 := by
  simp [report, codeOf]

theorem Loop.code_report_eq_one_iff (loop : Loop) : loop.report.code = 1 ↔ 0 < loop.failures := by
  simp [report, codeOf, Nat.pos_iff_ne_zero]

/-- The prompts are all on the standard output, ... -/
theorem standards_framed (setup : Setup) (session : Session) (lines : List String) :
    let prompt := if setup.verbosity = .quiet then "" else setup.settings.prompt
    standards ((stretch setup session lines).framed setup).emissions = prompt ++
      String.join ((visits setup session lines).map fun visit => standards (shown visit) ++ prompt) := by
  simp only [Loop.framed, stretch, standards_append, standards_flatMap, standards_promptFor,
    standards_failureWarning, String.append_empty]

/-- ... and the warning is on the error output. -/
theorem diagnostics_framed (setup : Setup) (session : Session) (lines : List String) :
    diagnostics ((stretch setup session lines).framed setup).emissions =
      String.join ((visits setup session lines).map fun visit => diagnostics (shown visit)) ++
        diagnostics (failureWarning setup.verbosity (stretch setup session lines).failures) := by
  simp only [Loop.framed, stretch, diagnostics_append, diagnostics_flatMap, diagnostics_promptFor,
    String.append_empty, String.empty_append]

/-- The loop over an input that goes on behind lines none of which says to stop. -/
theorem repl_append (setup : Setup) (session : Session) (front back : String)
    (h : ∀ line ∈ inputLines (front ++ "\n"), isStop line = false) :
    let first := repl setup session (front ++ "\n")
    let earlier := stretch setup session (reached (inputLines (front ++ "\n")))
    let later := stretch setup first.session (reached (inputLines back))
    repl setup session (front ++ "\n" ++ back) = (earlier.andThen later).framed setup := by
  intro first earlier later
  -- the front leaves the same session whether or not the warning comes behind it
  have hlater : stretch setup
      (runLines setup (.opened setup session) (inputLines (front ++ "\n"))).session
      (reached (inputLines back)) = later := rfl
  rw [repl, inputLines_append, runLines_append _ h, runLines_eq _ (inputLines back), hlater,
    runLines_eq, Loop.andThen_assoc, Loop.closed_opened]
  rfl

/-- **The interactive loop is the sequential execution of its lines.**  The lines of the input, without the
white space at their ends, are visited up to the first that is `exit` or `quit`; those that are not
empty are run, on the one session and in order.  Unless the console is quiet, the prompt comes once at
the start and once behind each line visited, and the last thing shown is how many runs failed if any did;
the code is that of success if none did.  For an input that goes on behind a line feed, with no line in
front of it that says to stop, the loop over the whole is the loop over the front, without its warning, and
then, from the session that it left, the loop over the rest, without its first prompt; and the failures
add up. -/
theorem repl_runs_lines_in_order (setup : Setup) (session : Session) :
    let prompt : List Emission :=
      if setup.verbosity = .quiet then [] else [.prompt setup.settings.prompt]
    let warning : Nat → List Emission := fun failures =>
      if failures = 0 ∨ setup.verbosity = .quiet then []
      else [.warning (toString failures ++ if failures = 1 then " line failed" else " lines failed")]
    (∀ stdin : String, ∃ lines, (∀ words, TrimmedLines stdin words ↔ words = lines) ∧
      let reached := lines.takeWhile fun line => line ≠ "exit" ∧ line ≠ "quit"
      let commands := reached.filter (· ≠ "")
      let visited := visits setup session reached
      let runs := lineRuns setup session commands
      let failures := runs.countP fun run => !run.succeeded
      let report := runTask setup session stdin .repl
      visited.filterMap id = runs ∧
      report.session = sessionAfter setup session commands ∧
      report.calls = (runs.flatMap fun run => run.call.toList) ∧
      report.emissions =
        prompt ++ (visited.flatMap fun visit => shown visit ++ prompt) ++ warning failures ∧
      (report.code = 0 ↔ ∀ run ∈ runs, run.succeeded = true) ∧
      (report.code = 1 ↔ 0 < failures) ∧
      -- the same on the two streams
      let promptText := if setup.verbosity = .quiet then "" else setup.settings.prompt
      report.standardOutput = promptText ++
        String.join (visited.map fun visit => standards (shown visit) ++ promptText) ∧
      report.errorOutput = String.join (visited.map fun visit => diagnostics (shown visit)) ++
        if failures = 0 ∨ setup.verbosity = .quiet then ""
        else "warning: " ++ toString failures ++ (if failures = 1 then " line" else " lines") ++
          " failed\n") ∧
    ∀ (front back : String) (lines : List String),
      TrimmedLines (front ++ "\n") lines → "exit" ∉ lines → "quit" ∉ lines →
      let first := repl setup session (front ++ "\n")
      let second := repl setup first.session back
      let whole := repl setup session (front ++ "\n" ++ back)
      whole.session = second.session ∧
      whole.calls = first.calls ++ second.calls ∧
      whole.failures = first.failures + second.failures ∧
      ∃ earlier later,
        first.emissions = prompt ++ earlier ++ warning first.failures ∧
        second.emissions = prompt ++ later ++ warning second.failures ∧
        whole.emissions = prompt ++ earlier ++ later ++ warning whole.failures := by
  intro prompt warning
  have hwarning : ∀ failures, warning failures = failureWarning setup.verbosity failures :=
    fun failures => (failureWarning_eq setup.verbosity failures).symm
  constructor
  · -- one input
    intro stdin
    refine ⟨inputLines stdin, fun words => trimmedLines_iff, ?_⟩
    rw [← reached_eq]
    intro lines commands visited runs failures report
    have hreport : report = ((stretch setup session lines).framed setup).report :=
      runTask_repl setup session stdin
    refine ⟨visits_filterMap setup session lines, congrArg Report.session hreport,
      congrArg Report.calls hreport, ?_, ?_, ?_, ?_, ?_⟩
    · rw [hreport, hwarning]
      rfl
    · rw [hreport, Loop.code_report_eq_zero_iff]
      exact countP_failed_eq_zero_iff runs
    · rw [hreport, Loop.code_report_eq_one_iff]
      rfl
    · rw [hreport]
      exact standards_framed setup session lines
    · rw [hreport, ← diagnostics_failureWarning]
      exact diagnostics_framed setup session lines
  · -- two inputs, of which the first has no line that says to stop
    intro front back lines hlines hexit hquit first second whole
    have hfront : ∀ line ∈ inputLines (front ++ "\n"), isStop line = false := by
      rw [← trimmedLines_iff.mp hlines]
      exact isStop_eq_false_of_not_mem hexit hquit
    let earlier := stretch setup session (reached (inputLines (front ++ "\n")))
    let later := stretch setup first.session (reached (inputLines back))
    have hfirst : first = earlier.framed setup := repl_eq setup session (front ++ "\n")
    have hsecond : second = later.framed setup := repl_eq setup first.session back
    have hwhole : whole = (earlier.andThen later).framed setup :=
      repl_append setup session front back hfront
    simp only [hwarning]
    rw [hwhole, hsecond, hfirst]
    refine ⟨rfl, rfl, rfl, earlier.emissions, later.emissions, rfl, rfl, ?_⟩
    simp only [Loop.framed, Loop.andThen, List.append_assoc]
    rfl

/-- A line that fails behind one that does not, a blank one, and a line behind the end of the loop. -/
theorem repl_stops_at_exit :
    let setup : Setup := ⟨Game.registry none, .empty, .normal⟩
    let first := repl setup (.start "steve" false) ("say hi" ++ "\n")
    let second := repl setup first.session "say\n\n exit\t\nsay"
    let whole := repl setup (.start "steve" false) ("say hi" ++ "\n" ++ "say\n\n exit\t\nsay")
    (TrimmedLines ("say hi" ++ "\n") ["say hi"] ∧ "exit" ∉ ["say hi"] ∧ "quit" ∉ ["say hi"]) ∧
      first.emissions = [.prompt "> ", .line "[steve] hi", .prompt "> "] ∧
      second.emissions = [.prompt "> ", .error "Expected string at position 3\nsay\n   ^",
        .prompt "> ", .prompt "> ", .warning "1 line failed"] ∧
      whole.failures = 1 ∧
      whole.emissions = [.prompt "> ", .line "[steve] hi", .prompt "> ",
        .error "Expected string at position 3\nsay\n   ^", .prompt "> ", .prompt "> ",
        .warning "1 line failed"] := by
  intro setup first second whole
  have hlines : TrimmedLines ("say hi" ++ "\n") ["say hi"] := trimmedLines_iff.mpr (by decide +kernel)
  have hexit : "exit" ∉ ["say hi"] := by decide
  have hquit : "quit" ∉ ["say hi"] := by decide
  have hfirst : first.failures = 0 ∧
      first.emissions = [.prompt "> ", .line "[steve] hi", .prompt "> "] := by decide +kernel
  have hsecond : second.failures = 1 ∧
      second.emissions = [.prompt "> ", .error "Expected string at position 3\nsay\n   ^",
        .prompt "> ", .prompt "> ", .warning "1 line failed"] := by decide +kernel
  obtain ⟨-, -, hfailures, earlier, later, hearlier, hlater, hwhole⟩ :=
    (repl_runs_lines_in_order setup (.start "steve" false)).2 "say hi" "say\n\n exit\t\nsay" _
      hlines hexit hquit
  have hone : whole.failures = 1 := by rw [hfailures, hfirst.1, hsecond.1]
  have hfront : Emission.prompt "> " :: earlier = first.emissions := by
    rw [hearlier, hfirst.1]
    exact (List.append_nil _).symm
  have hback : Emission.prompt "> " :: later ++ [.warning "1 line failed"] = second.emissions := by
    rw [hlater, hsecond.1]
    rfl
  refine ⟨⟨hlines, hexit, hquit⟩, hfirst.2, hsecond.2, hone, ?_⟩
  -- the whole is the front and then the back, which goes on behind its first prompt
  calc whole.emissions
      = (Emission.prompt "> " :: earlier) ++ (later ++ [.warning "1 line failed"]) := by
        rw [hwhole, hone, List.append_assoc]
        rfl
    _ = first.emissions ++ second.emissions.tail := by rw [hfront, ← hback]; rfl
    _ = _ := by rw [hfirst.2, hsecond.2]; rfl

end TextCommand.Console
