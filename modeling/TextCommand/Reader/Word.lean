import TextCommand.Reader.Error

/-!
# Words and quoted strings

A word is a maximal run of ASCII letters, digits and `_ - . +`. A quoted string stands between two
equal quotes; a backslash takes the next character as it is. Both pass the blanks that follow them,
and a read that fails leaves the reader where it was.
-/

namespace TextCommand

/-- Characters of a word that needs no quotes. -/
def isBare (c : Char) : Bool :=
  c.isAlphanum || c == '_' || c == '-' || c == '.' || c == '+'

/-- Characters that open and close a quoted string. -/
def isQuote (c : Char) : Bool := c == '\x22' || c == '\x27'

/-- The text in front of the first `stop` that no backslash escapes, with the escaping backslashes
removed, and how many characters it takes up together with that `stop`. -/
def unescapeUntil (stop : Char) : List Char → Except ReadFault (List Char × Nat)
  | [] => .error (.unclosedQuote stop)
  | ['\\'] => .error .unfinishedEscape
  | '\\' :: c :: cs => (unescapeUntil stop cs).map fun (text, n) => (c :: text, n + 2)
  | c :: cs =>
    if c = stop then .ok ([], 1)
    else (unescapeUntil stop cs).map fun (text, n) => (c :: text, n + 1)

namespace Reader

def readWord (r : Reader) : Reading ReadError String :=
  match r.rest.takeWhile isBare with
  | [] => r.fail .expectedString
  | word => ⟨.ok (String.ofList word), (r.advance word.length).skipBlank⟩

/-- Reads up to and including the first unescaped `stop`; the text in front of it must not be
empty. -/
def readUntil (stop : Char) (r : Reader) : Reading ReadError String :=
  match unescapeUntil stop r.rest with
  | .error fault => r.fail fault
  | .ok ([], _) => r.fail .expectedString
  | .ok (text, n) => ⟨.ok (String.ofList text), (r.advance n).skipBlank⟩

def readQuoted (r : Reader) : Reading ReadError String :=
  match r.peek with
  | none => r.fail .expectedQuote
  | some quote =>
    if isQuote quote then
      match r.skip.readUntil quote with
      | ⟨.ok text, next⟩ => ⟨.ok text, next⟩
      | ⟨.error e, _⟩ => r.fail e.fault
    else r.fail .expectedQuote

/-- A quoted string if a quote comes next, otherwise a word. -/
def readString (r : Reader) : Reading ReadError String :=
  if r.peek.any isQuote then r.readQuoted else r.readWord

end Reader

end TextCommand
