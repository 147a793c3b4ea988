import TextCommand.Text.Inspect
import TextCommand.Toml.Document

/-!
# Settings

The contents of a configuration file: an optional table for the console and an optional table of
limits, with optional fields. A table may also be written as an array of its fields in this order.
Unknown keys are refused.
-/

namespace TextCommand

structure ConsoleSettings where
  prompt : Option String
  showSuggestions : Option Bool
deriving DecidableEq, Repr

structure LimitSettings where
  maxInputLength : Option Nat
deriving DecidableEq, Repr

structure Settings where
  console : Option ConsoleSettings
  limits : Option LimitSettings
deriving DecidableEq, Repr

/-- A value that can be read but makes no sense. -/
inductive SettingFault where
  | promptSpansLines (prompt : String)
  | zeroLimit
deriving DecidableEq, Repr

def SettingFault.message : SettingFault → String
  | .promptSpansLines prompt =>
    "console.prompt must be a single line, got " ++ Text.inspect prompt
  | .zeroLimit => "limits.max_input_length must be greater than zero"

/-! ### From TOML -/

def textOf? : Toml.Value → Option String
  | .text s => some s
  | _ => none

def booleanOf? : Toml.Value → Option Bool
  | .boolean b => some b
  | _ => none

def naturalOf? : Toml.Value → Option Nat
  | .integer n => if 0 ≤ n then some n.toNat else none
  | _ => none

/-- The field of a table or array, if it is there; the outer option fails on a value of the wrong
type. -/
def field? {α : Type} (decode : Toml.Value → Option α) : Option Toml.Value → Option (Option α)
  | none => some none
  | some v => (decode v).map some

/-- The values of the named fields, in this order; fails on a key that is not among the names. -/
def fieldsOf? (names : List String) : Toml.Value → Option (List (Option Toml.Value))
  | .table entries =>
    if entries.all fun (key, _) => names.contains key then some (names.map fun name => entries.lookup name)
    else none
  | .array items => some (names.mapIdx fun i _ => items[i]?)
  | _ => none

def ConsoleSettings.of? (v : Toml.Value) : Option ConsoleSettings := do
  match ← fieldsOf? ["prompt", "show_suggestions"] v with
  | [prompt, showSuggestions] =>
    some ⟨← field? textOf? prompt, ← field? booleanOf? showSuggestions⟩
  | _ => none

def LimitSettings.of? (v : Toml.Value) : Option LimitSettings := do
  match ← fieldsOf? ["max_input_length"] v with
  | [maxInputLength] => some ⟨← field? naturalOf? maxInputLength⟩
  | _ => none

namespace Settings

def empty : Settings := ⟨none, none⟩

/-- Reads the text of a configuration file. -/
def read? (text : String) : Option Settings := do
  let entries ← Toml.Document.read? text
  match ← fieldsOf? ["console", "limits"] (.table entries) with
  | [console, limits] =>
    some ⟨← field? ConsoleSettings.of? console, ← field? LimitSettings.of? limits⟩
  | _ => none

/-- The first fault, the console's before the limits'. -/
def fault? (settings : Settings) : Option SettingFault :=
  match settings.console.bind (·.prompt) with
  | some prompt =>
    if prompt.toList.any fun c => c == '\n' || c == '\r' then some (.promptSpansLines prompt)
    else zeroLimit? settings
  | none => zeroLimit? settings
where
  zeroLimit? (settings : Settings) : Option SettingFault :=
    if settings.limits.bind (·.maxInputLength) = some 0 then some .zeroLimit else none

/-! ### Defaults -/

def prompt (settings : Settings) : String := (settings.console.bind (·.prompt)).getD "> "

def showSuggestions (settings : Settings) : Bool :=
  (settings.console.bind (·.showSuggestions)).getD true

def maxInputLength (settings : Settings) : Option Nat := settings.limits.bind (·.maxInputLength)

end Settings

end TextCommand
