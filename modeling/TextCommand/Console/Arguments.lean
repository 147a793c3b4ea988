/-!
# The console's command line

Options may stand in front of the task or behind it; a value given behind it wins. Each option may
be given once on either side. After `--` everything is taken as it is.
-/

namespace TextCommand.Console

inductive Task where
  | exec (input : String)
  | check (input : String)
  | suggest (input : String)
  | usage
  | repl
deriving DecidableEq, Repr

structure Invocation where
  config : Option String
  debug : Bool
  quiet : Bool
  operator : Bool
  player : String
  task : Task
deriving DecidableEq, Repr

/-- Why there is nothing to run. -/
inductive Refusal where
  | helpRequested
  | versionRequested
  | unknownOption (option : String)
  | repeatedOption (option : String)
  | unneededValue (option : String)
  | missingValue (option : String)
  | unexpectedArgument (argument : String)
  | missingInput
  | missingTask
deriving DecidableEq, Repr

def Refusal.message : Refusal → String
  | .helpRequested =>
    "usage: cmdtree-console [--config PATH] [--debug] [-q|--quiet] [--op] [--player NAME] " ++
      "(exec INPUT | check INPUT | suggest INPUT | usage | repl)"
  | .versionRequested => "cmdtree-console 0.1.0"
  | .unknownOption option => s!"unexpected argument '{option}' found"
  | .repeatedOption option => s!"the argument '{option}' cannot be used multiple times"
  | .unneededValue option => s!"unexpected value for '{option}' found; no more were expected"
  | .missingValue option => s!"a value is required for '{option}' but none was supplied"
  | .unexpectedArgument argument => s!"unexpected argument '{argument}' found"
  | .missingInput => "the required argument <INPUT> was not provided"
  | .missingTask => "a subcommand is required but one was not provided"

/-- The process succeeds if help or the version was asked for. -/
def Refusal.isInformation : Refusal → Bool
  | .helpRequested | .versionRequested => true
  | _ => false

/-- The options given on one side of the task. -/
structure Options where
  config : Option String
  debug : Bool
  quiet : Bool
  operator : Bool
  player : Option String
deriving DecidableEq, Repr

namespace Options

def none : Options := ⟨.none, false, false, false, .none⟩

/-- Both sides together; values behind the task win. -/
def merge (front back : Options) : Options :=
  { config := back.config <|> front.config
    debug := front.debug || back.debug
    quiet := front.quiet || back.quiet
    operator := front.operator || back.operator
    player := back.player <|> front.player }

end Options

/-- An option that takes a value. -/
inductive ValueOption where
  | config | player
deriving DecidableEq, Repr

def ValueOption.name : ValueOption → String
  | .config => "--config"
  | .player => "--player"

/-- The form of one argument in front of `--`. -/
inductive Form where
  | flag (name : String)
  | valued (option : ValueOption) (value : Option String)
  | cluster (letters : List Char)
  | plain (text : String)
  | escape
deriving DecidableEq, Repr

/-- Splits `name=value`. -/
def splitAssignment (cs : List Char) : List Char × Option (List Char) :=
  (cs.takeWhile (· ≠ '='),
    match cs.dropWhile (· ≠ '=') with
    | [] => none
    | _ :: value => some value)

def Form.of (argument : String) : Except Refusal Form :=
  match argument.toList with
  | ['-', '-'] => .ok .escape
  | '-' :: '-' :: cs =>
    let (name, value) := splitAssignment cs
    let option := "--" ++ String.ofList name
    if option = "--config" then .ok (.valued .config (value.map String.ofList))
    else if option = "--player" then .ok (.valued .player (value.map String.ofList))
    else if ["--debug", "--quiet", "--op", "--help", "--version"].contains option then
      if value.isSome then .error (.unneededValue option) else .ok (.flag option)
    else .error (.unknownOption argument)
  | ['-'] => .ok (.plain argument)
  | '-' :: cs => .ok (.cluster cs)
  | _ => .ok (.plain argument)

namespace Options

/-- Sets a flag, which must not be set yet. The version can be asked for only in front of the
task. -/
def setFlag (inFront : Bool) (name : String) (o : Options) : Except Refusal Options :=
  match name with
  | "--debug" => if o.debug then .error (.repeatedOption name) else .ok { o with debug := true }
  | "--quiet" | "-q" =>
    if o.quiet then .error (.repeatedOption "--quiet") else .ok { o with quiet := true }
  | "--op" => if o.operator then .error (.repeatedOption name) else .ok { o with operator := true }
  | "--help" | "-h" => .error .helpRequested
  | "--version" | "-V" =>
    .error (if inFront then .versionRequested else .unknownOption name)
  | _ => .error (.unknownOption name)

/-- Sets a value, which must not be set yet. The path of a configuration must not be empty. -/
def setValue (option : ValueOption) (value : String) (o : Options) : Except Refusal Options :=
  match option with
  | .config =>
    if o.config.isSome then .error (.repeatedOption option.name)
    else if value.isEmpty then .error (.missingValue option.name)
    else .ok { o with config := some value }
  | .player =>
    if o.player.isSome then .error (.repeatedOption option.name)
    else .ok { o with player := some value }

def setFlags (inFront : Bool) (letters : List Char) (o : Options) : Except Refusal Options :=
  letters.foldlM (fun o letter => o.setFlag inFront (String.ofList ['-', letter])) o

end Options

/-- What stands on one side of the task: its options, and the first plain argument with all that
follows it, if there is one. -/
structure Side where
  options : Options
  plain : Option String
  after : List String
  /-- `--` was seen, so nothing after it is an option -/
  escaped : Bool

/-- Reads options up to the first plain argument. -/
def readSide (inFront : Bool) : Options → List String → Except Refusal Side
  | o, [] => .ok ⟨o, none, [], false⟩
  | o, argument :: rest =>
    match Form.of argument with
    | .error refusal => .error refusal
    | .ok .escape =>
      match rest with
      | [] => .ok ⟨o, none, [], true⟩
      | text :: after => .ok ⟨o, some text, after, true⟩
    | .ok (.plain text) => .ok ⟨o, some text, rest, false⟩
    | .ok (.flag name) =>
      match o.setFlag inFront name with
      | .error refusal => .error refusal
      | .ok o => readSide inFront o rest
    | .ok (.cluster letters) =>
      match o.setFlags inFront letters with
      | .error refusal => .error refusal
      | .ok o => readSide inFront o rest
    | .ok (.valued option (some value)) =>
      match o.setValue option value with
      | .error refusal => .error refusal
      | .ok o => readSide inFront o rest
    | .ok (.valued option none) =>
      match rest with
      | [] => .error (.missingValue option.name)
      | value :: rest =>
        match Form.of value with
        | .ok (.plain text) =>
          match o.setValue option text with
          | .error refusal => .error refusal
          | .ok o => readSide inFront o rest
        | _ => .error (.missingValue option.name)

/-- Reads what stands behind the task: options, and the task's input if it takes one. -/
def readBack (takesInput : Bool) (arguments : List String) :
    Except Refusal (Options × Option String) :=
  match readSide false .none arguments with
  | .error refusal => .error refusal
  | .ok ⟨o, none, _, _⟩ => if takesInput then .error .missingInput else .ok (o, none)
  | .ok ⟨o, some text, after, escaped⟩ =>
    if !takesInput then .error (.unexpectedArgument text)
    else if escaped then
      match after with
      | [] => .ok (o, some text)
      | extra :: _ => .error (.unexpectedArgument extra)
    else
      match readSide false o after with
      | .error refusal => .error refusal
      | .ok ⟨o, none, _, _⟩ => .ok (o, some text)
      | .ok ⟨_, some extra, _, _⟩ => .error (.unexpectedArgument extra)

/-- Which task a word names, and whether it takes an input. -/
def taskNamed? (word : String) : Option (Bool × (String → Task)) :=
  match word with
  | "exec" => some (true, .exec)
  | "check" => some (true, .check)
  | "suggest" => some (true, .suggest)
  | "usage" => some (false, fun _ => .usage)
  | "repl" => some (false, fun _ => .repl)
  | _ => none

/-- Help may be asked for on a task, or on help itself. -/
def helpOn : List String → Refusal
  | [] => .helpRequested
  | [word] =>
    if word = "help" || (taskNamed? word).isSome then .helpRequested else .unexpectedArgument word
  | _ :: word :: _ => .unexpectedArgument word

def Invocation.read (arguments : List String) : Except Refusal Invocation :=
  match readSide true .none arguments with
  | .error refusal => .error refusal
  | .ok ⟨_, none, _, _⟩ => .error .missingTask
  | .ok ⟨front, some word, after, escaped⟩ =>
    if escaped then .error (.unexpectedArgument word)
    else
      match taskNamed? word with
      | none => .error (if word = "help" then helpOn after else .unexpectedArgument word)
      | some (takesInput, task) =>
        match readBack takesInput after with
        | .error refusal => .error refusal
        | .ok (back, input) =>
          let o := front.merge back
          .ok { config := o.config, debug := o.debug, quiet := o.quiet, operator := o.operator,
                player := o.player.getD "console", task := task (input.getD "") }

end TextCommand.Console
