import TextCommand.Console.Line

/-!
# The interactive loop

Lines are run one after the other on one session, until the input ends or a line says to stop. Blank
lines do nothing but bring the prompt again. At the end the failed lines are counted.
-/

namespace TextCommand.Console

/-- A text cut at its line feeds; a last line that is empty does not count. -/
def splitLines : List Char → List (List Char)
  | [] => []
  | c :: cs =>
    if c = '\n' then [] :: splitLines cs
    else
      match splitLines cs with
      | [] => [[c]]
      | line :: lines => (c :: line) :: lines

/-- A line without the blanks at its ends. -/
def inputLines (stdin : String) : List String :=
  (splitLines stdin.toList).map fun line => String.ofList (Text.trimChars line)

def isStop (line : String) : Bool := line == "exit" || line == "quit"

structure Loop where
  session : Game.Session
  failures : Nat
  emissions : List Emission
  /-- the actions that were entered, in order -/
  calls : List (Call Source)

/-- Shows the prompt. -/
def promptFor (setup : Setup) : List Emission :=
  unlessQuiet setup.verbosity (.prompt setup.settings.prompt)

/-- One trimmed line and the prompt after it; `none` if the line says to stop. -/
def step? (setup : Setup) (session : Game.Session) (line : String) : Option LineRun :=
  if isStop line then none
  else if line.isEmpty then some ⟨true, session, promptFor setup, none⟩
  else
    let run := runLine setup session line
    some { run with emissions := run.emissions ++ promptFor setup }

namespace Loop

/-- One loop and then another, which has gone on with the session that the first has left. -/
def andThen (first second : Loop) : Loop where
  session := second.session
  failures := first.failures + second.failures
  emissions := first.emissions ++ second.emissions
  calls := first.calls ++ second.calls

/-- A loop over no lines yet. -/
def opened (setup : Setup) (session : Game.Session) : Loop := ⟨session, 0, promptFor setup, []⟩

/-- What is shown already need not be kept. -/
def shown (loop : Loop) : Loop := { loop with emissions := [], calls := [] }

end Loop

/-- A loop over a single line. -/
def LineRun.loop (run : LineRun) : Loop :=
  ⟨run.session, if run.succeeded then 0 else 1, run.emissions, run.call.toList⟩

/-- The loop one line further on; `none` if the line says to stop. -/
def Loop.next? (setup : Setup) (loop : Loop) (line : String) : Option Loop :=
  (step? setup loop.session line).map fun run => loop.andThen run.loop

/-- Goes on with the lines up to one that says to stop. -/
def runLines (setup : Setup) : Loop → List String → Loop
  | loop, [] => loop
  | loop, line :: lines =>
    match loop.next? setup line with
    | none => loop
    | some next => runLines setup next lines

/-- The warning at the end. -/
def failureWarning (verbosity : Verbosity) (failures : Nat) : List Emission :=
  if failures = 0 then []
  else if failures = 1 then unlessQuiet verbosity (.warning "1 line failed")
  else unlessQuiet verbosity (.warning s!"{failures} lines failed")

/-- The loop with what is said at its end. -/
def Loop.closed (setup : Setup) (loop : Loop) : Loop :=
  { loop with emissions := loop.emissions ++ failureWarning setup.verbosity loop.failures }

def repl (setup : Setup) (session : Game.Session) (stdin : String) : Loop :=
  (runLines setup (.opened setup session) (inputLines stdin)).closed setup

end TextCommand.Console
