import TextCommand.Config.Files
import TextCommand.Config.Settings

/-!
# Finding and loading the configuration

A path given explicitly must exist. Otherwise the first path that exists among the default places is
taken, and if none does, the defaults hold.
-/

namespace TextCommand

/-- Why a file that exists cannot be read. -/
inductive ReadCause where
  | isDirectory
  | notUtf8
deriving DecidableEq, Repr

def ReadCause.message : ReadCause → String
  | .isDirectory => "Is a directory (os error 21)"
  | .notUtf8 => "stream did not contain valid UTF-8"

inductive ConfigError where
  | unreadable (path : String) (cause : ReadCause)
  | malformed (path : String) (detail : String)
  | notFound (path : String)
  | invalid (fault : SettingFault)
deriving DecidableEq, Repr

namespace ConfigError

def message : ConfigError → String
  | .unreadable path cause => s!"failed to read config file '{path}': {cause.message}"
  | .malformed path detail => s!"failed to parse config file '{path}': {detail}"
  | .notFound path => s!"config file '{path}' does not exist"
  | .invalid fault => s!"invalid config value: {fault.message}"

/-- The message followed by those of the errors underneath. -/
def chain (e : ConfigError) : String :=
  match e with
  | .unreadable _ cause => s!"{e.message}: {cause.message}"
  | _ => e.message

end ConfigError

/-- What the console can see of the system around it. -/
structure Environment where
  variableNamed : String → Option String
  home : Option String
  lookup : String → Option FileEntry

structure Config where
  settings : Settings
  /-- the file that the settings are from -/
  path : Option String
deriving DecidableEq, Repr

namespace Config

def default : Config := ⟨.empty, none⟩

/-- The default places, in the order in which they are tried. -/
def searchPaths (variableNamed : String → Option String) (home : Option String) : List String :=
  (variableNamed "CMDTREE_CONFIG").toList ++
    ((variableNamed "XDG_CONFIG_HOME").map (joinPaths · "cmdtree/config.toml")).toList ++
    (home.map (joinPaths · ".cmdtree/config.toml")).toList

/-- The places that loading looks at. -/
def candidates (explicit : Option String) (variableNamed : String → Option String)
    (home : Option String) : List String :=
  match explicit with
  | some path => [path]
  | none => searchPaths variableNamed home

/-- Reads the text of the file at a path. -/
def parse (text path : String) : Except ConfigError Settings :=
  match Settings.read? text with
  | some settings => .ok settings
  | none => .error (.malformed path "not a configuration in TOML")

def loadEntry (path : String) : FileEntry → Except ConfigError Config
  | .directory => .error (.unreadable path .isDirectory)
  | .file contents =>
    match String.fromUTF8? contents with
    | none => .error (.unreadable path .notUtf8)
    | some text =>
      match parse text path with
      | .error e => .error e
      | .ok settings =>
        match settings.fault? with
        | some fault => .error (.invalid fault)
        | none => .ok ⟨settings, some path⟩

/-- The first path that leads to something. -/
def firstEntry (lookup : String → Option FileEntry) : List String → Option (String × FileEntry)
  | [] => none
  | path :: paths =>
    match lookup path with
    | some entry => some (path, entry)
    | none => firstEntry lookup paths

def load (explicit : Option String) (env : Environment) : Except ConfigError Config :=
  match explicit with
  | some path =>
    match env.lookup path with
    | some entry => loadEntry path entry
    | none => .error (.notFound path)
  | none =>
    match firstEntry env.lookup (searchPaths env.variableNamed env.home) with
    | some (path, entry) => loadEntry path entry
    | none => .ok default

end Config

end TextCommand
