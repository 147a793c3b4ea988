import TextCommand.Console.Run

/-!
# The console program

Finds out what the console has to know of the system, runs it and shows what it emits. The
interactive loop is fed line by line, so that its prompts come in time.
-/

namespace TextCommand.Console

/-- What a path of the system leads to; reading a directory fails with error 21. -/
def probe (path : String) : IO (Option FileEntry) := do
  match ← (IO.FS.readBinFile path).toBaseIO with
  | .ok contents => return some (.file contents)
  | .error (.inappropriateType _ 21 _) =>
    return some .directory
  | .error _ => return none

/-- The variables and files that loading a configuration may look at. -/
def inspectSystem (explicit : Option String) : IO Environment := do
  let names := ["CMDTREE_CONFIG", "XDG_CONFIG_HOME"]
  let known ← names.mapM fun name => return (name, ← IO.getEnv name)
  let variableNamed := fun name => (known.lookup name).join
  let home := (← IO.getEnv "HOME").filter (· ≠ "")
  let entries ← (Config.candidates explicit variableNamed home).mapM fun path =>
    return (path, ← probe path)
  return { variableNamed, home, lookup := fun path => (entries.lookup path).join }

def emit (emissions : List Emission) : IO Unit := do
  for emission in emissions do
    IO.print emission.standard
    IO.eprint emission.diagnostic
  (← IO.getStdout).flush

/-- Reads up to and including the next line feed, or what is left. -/
partial def readLine (input : IO.FS.Stream) (line : ByteArray) : IO ByteArray := do
  let next ← input.read 1
  if next.isEmpty || next.data.contains 10 then return line ++ next
  readLine input (line ++ next)

/-- Feeds the standard input to the loop, line by line, and shows what comes of each; `none` if a line of
it is no text. -/
partial def feed (setup : Setup) (loop : Loop) : IO (Option Loop) := do
  let bytes ← readLine (← IO.getStdin) .empty
  if bytes.isEmpty then return some loop
  match String.fromUTF8? bytes with
  | none => return none
  | some line =>
    match loop.next? setup (Text.trim line) with
    | none => return some loop
    | some next =>
      emit next.emissions
      feed setup next.shown

def runProgram (invocation : Invocation) : IO Nat := do
  let env ← inspectSystem invocation.config
  match invocation.task, Config.load invocation.config env with
  | .repl, .ok config =>
    let setup := invocation.setup config.settings
    let loop := Loop.opened setup invocation.session
    emit loop.emissions
    match ← feed setup loop.shown with
    | none =>
      emit [.error "failed to read from stdin: stream did not contain valid UTF-8"]
      return 1
    | some loop =>
      let report := (loop.closed setup).report
      emit report.emissions
      return report.code
  | _, _ =>
    let report := runInvocation invocation env ""
    emit report.emissions
    return report.code

end TextCommand.Console

def main (arguments : List String) : IO UInt32 := do
  match TextCommand.Console.Invocation.read arguments with
  | .ok invocation => return (← TextCommand.Console.runProgram invocation).toUInt32
  | .error refusal =>
    TextCommand.Console.emit refusal.report.emissions
    return refusal.report.code.toUInt32
