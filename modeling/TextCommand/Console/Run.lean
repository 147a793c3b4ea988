import TextCommand.Console.Arguments
import TextCommand.Console.Repl

/-!
# The console as a whole

From the command line, the system around and the standard input to the exit code and all output.
-/

namespace TextCommand.Console

structure Report where
  code : Nat
  session : Game.Session
  emissions : List Emission
  /-- the actions that were entered, in order -/
  calls : List (Call Source)

namespace Report

def standardOutput (report : Report) : String :=
  String.join (report.emissions.map Emission.standard)

def errorOutput (report : Report) : String :=
  String.join (report.emissions.map Emission.diagnostic)

end Report

/-- The exit code of success or failure. -/
def codeOf (success : Bool) : Nat := if success then 0 else 1

/-- A loop that is over; it fails if a line of it did. -/
def Loop.report (loop : Loop) : Report :=
  ⟨codeOf (loop.failures == 0), loop.session, loop.emissions, loop.calls⟩

def runTask (setup : Setup) (session : Game.Session) (stdin : String) : Task → Report
  | .exec input =>
    let run := runLine setup session input
    ⟨codeOf run.succeeded, run.session, run.emissions, run.call.toList⟩
  | .check input =>
    let valid := setup.registry.acceptsText input
    ⟨codeOf valid, session,
      unlessQuiet setup.verbosity (.line (if valid then "valid" else "invalid")), []⟩
  | .suggest input =>
    match setup.registry.suggestText (.holding (.session session)) input with
    | [] => ⟨0, session, [], []⟩
    | items => ⟨0, session, unlessQuiet setup.verbosity (.line (formatList items "")), []⟩
  | .usage =>
    let lines := setup.registry.usageLines (.holding (.session session))
    ⟨0, session, unlessQuiet setup.verbosity (.line (formatList lines "")), []⟩
  | .repl => (repl setup session stdin).report

/-- The session with which an invocation starts. -/
def Invocation.session (invocation : Invocation) : Game.Session :=
  .start invocation.player invocation.operator

def Invocation.setup (invocation : Invocation) (settings : Settings) : Setup :=
  { registry := Game.registry settings.maxInputLength
    settings
    verbosity := .ofFlags invocation.quiet invocation.debug }

/-- The error of a configuration that cannot be loaded. -/
def loadFailure (e : ConfigError) : Emission :=
  .error s!"failed to load configuration: {e.chain}"

/-- Runs an invocation with the configuration that it asks for. -/
def runInvocation (invocation : Invocation) (env : Environment) (stdin : String) : Report :=
  match Config.load invocation.config env with
  | .error e => ⟨1, invocation.session, [loadFailure e], []⟩
  | .ok config =>
    runTask (invocation.setup config.settings) invocation.session stdin invocation.task

/-- What is left to say when there is nothing to run. -/
def Refusal.report (refusal : Refusal) : Report :=
  if refusal.isInformation then ⟨0, .start "" false, [.line refusal.message], []⟩
  else ⟨2, .start "" false, [.error refusal.message], []⟩

/-- Runs the console; arguments that make no sense end it with code 2. -/
def run (arguments : List String) (env : Environment) (stdin : String) : Report :=
  match Invocation.read arguments with
  | .ok invocation => runInvocation invocation env stdin
  | .error refusal => refusal.report

end TextCommand.Console
