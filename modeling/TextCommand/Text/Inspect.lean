import TextCommand.Text.Invisible

/-!
# Inspected text

How a value shows itself to a person who debugs: a text stands between double quotes, with quotes,
backslashes, line breaks and invisible characters escaped; a list stands in brackets; a record is
its name and its fields.
-/

namespace TextCommand.Text

/-- One character as it stands inside the double quotes of an inspected text. -/
def inspectChar (c : Char) : List Char :=
  match c with
  | '\x00' => ['\\', '0']
  | '\t' => ['\\', 't']
  | '\r' => ['\\', 'r']
  | '\n' => ['\\', 'n']
  | '\x22' => ['\\', '\x22']
  | '\\' => ['\\', '\\']
  | c =>
    if isInvisible c then '\\' :: 'u' :: '\x7b' :: (Nat.toDigits 16 c.toNat ++ ['\x7d'])
    else [c]

def inspect (s : String) : String :=
  String.ofList ('\x22' :: (s.toList.flatMap inspectChar ++ ['\x22']))

/-- A list of shown items. -/
def inspectList (items : List String) : String := "[" ++ ", ".intercalate items ++ "]"

/-- A record with shown fields. -/
def inspectRecord (name : String) (fields : List (String × String)) : String :=
  name ++ " \x7b " ++ ", ".intercalate (fields.map fun (field, value) => field ++ ": " ++ value) ++
    " \x7d"

def inspectBool (b : Bool) : String := if b then "true" else "false"

end TextCommand.Text
