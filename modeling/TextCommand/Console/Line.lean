import TextCommand.Config.Load
import TextCommand.Console.Output
import TextCommand.Game.Commands

/-!
# Running one line

A line is refused if the session lacks permission for a command on its path. Otherwise it runs;
what the commands said is printed, then the error, and after an error the suggestions for the line.
-/

namespace TextCommand.Console

/-- What a console keeps from line to line, apart from the session. -/
structure Setup where
  registry : Registry Source
  settings : Settings
  verbosity : Verbosity

structure LineRun where
  /-- the command ran and succeeded -/
  succeeded : Bool
  session : Game.Session
  emissions : List Emission
  /-- the action that was entered, if any -/
  call : Option (Call Source)

/-- The lines a session's commands have said. -/
def printed (verbosity : Verbosity) (lines : List String) : List Emission :=
  lines.flatMap fun line => unlessQuiet verbosity (.line line)

/-- The suggestions shown below an error. -/
def hints (setup : Setup) (session : Game.Session) (input : String) : List Emission :=
  if setup.settings.showSuggestions then
    match setup.registry.suggestText (.holding (.session session)) input with
    | [] => []
    | items => unlessQuiet setup.verbosity (.line ("suggestions:\n" ++ formatList items "  "))
  else []

def runLine (setup : Setup) (session : Game.Session) (input : String) : LineRun :=
  let source : Source := .holding (.session session)
  match setup.registry.denied? source input with
  | some name => ⟨false, session, [.error s!"permission denied for '{name}'"], none⟩
  | none =>
    let run := setup.registry.runText source input
    let (lines, after) := (run.source.tryGetSession.getD session).takeOutput
    let shown := printed setup.verbosity lines
    match run.result with
    | .ok _ => ⟨true, after, shown, run.call⟩
    | .error e =>
      ⟨false, after, shown ++ .error (formatError e input) :: hints setup after input, run.call⟩

end TextCommand.Console
