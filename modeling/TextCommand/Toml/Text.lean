import TextCommand.Number.Integer

/-!
# Strings, keys and line ends of TOML

Every reading function takes the characters that are left and answers what it read together with
those that are left then; `none` means that the text does not have the form.
-/

namespace TextCommand.Toml

def isSpace (c : Char) : Bool := c == ' ' || c == '\t'

def skipSpace (cs : List Char) : List Char := cs.dropWhile isSpace

/-- Characters of a comment and of a literal string in one line. -/
def isPrintable (c : Char) : Bool := c == '\t' || 0x20 ≤ c.toNat && c.toNat != 0x7F

/-- What follows a line break. -/
def newline? : List Char → Option (List Char)
  | '\n' :: cs => some cs
  | '\r' :: '\n' :: cs => some cs
  | _ => none

/-- What follows the end of a line, which may be the end of the text. -/
def lineEnd? : List Char → Option (List Char)
  | [] => some []
  | cs => newline? cs

def skipComment : List Char → List Char
  | '#' :: cs => cs.dropWhile isPrintable
  | cs => cs

/-- Passes spaces and line breaks. -/
def skipBreaks : List Char → List Char
  | ' ' :: cs | '\t' :: cs | '\n' :: cs | '\r' :: '\n' :: cs => skipBreaks cs
  | cs => cs

/-- What follows the rest of a line that holds nothing but a comment. -/
def restOfLine? (cs : List Char) : Option (List Char) := lineEnd? (skipComment (skipSpace cs))

/-- Passes spaces, line breaks and comments; a comment must end with its line. -/
def skipLines : Nat → List Char → Option (List Char)
  | 0, _ => none
  | fuel + 1, cs =>
    match skipSpace cs with
    | '#' :: rest => (newline? (rest.dropWhile isPrintable)).bind (skipLines fuel)
    | rest =>
      match newline? rest with
      | some next => skipLines fuel next
      | none => some rest

/-! ### Strings -/

def hexDigit? (c : Char) : Option Nat :=
  if c.isDigit then some (c.toNat - '0'.toNat)
  else if 'a' ≤ c && c ≤ 'f' then some (c.toNat - 'a'.toNat + 10)
  else if 'A' ≤ c && c ≤ 'F' then some (c.toNat - 'A'.toNat + 10)
  else none

/-- The character whose code point stands in the next `n` hexadecimal digits. -/
def codePoint? (n : Nat) (cs : List Char) : Option (Char × List Char) := do
  let digits ← (cs.take n).mapM hexDigit?
  if digits.length = n then
    let code := digits.foldl (fun value digit => 16 * value + digit) 0
    if code.isValidChar then some (Char.ofNat code, cs.drop n) else none
  else none

/-- What an escape stands for, behind its backslash. -/
def escape? : List Char → Option (Char × List Char)
  | 'b' :: cs => some ('\x08', cs)
  | 't' :: cs => some ('\t', cs)
  | 'n' :: cs => some ('\n', cs)
  | 'f' :: cs => some ('\x0c', cs)
  | 'r' :: cs => some ('\r', cs)
  | '\x22' :: cs => some ('\x22', cs)
  | '\\' :: cs => some ('\\', cs)
  | 'u' :: cs => codePoint? 4 cs
  | 'U' :: cs => codePoint? 8 cs
  | _ => none

/-- Puts a character in front of what was read. -/
def prepend (c : Char) (read : Option (List Char × List Char)) : Option (List Char × List Char) :=
  read.map fun (text, rest) => (c :: text, rest)

/-- The rest of a string between double quotes. -/
def basicBody : Nat → List Char → Option (List Char × List Char)
  | 0, _ | _, [] => none
  | _, '\x22' :: cs => some ([], cs)
  | fuel + 1, '\\' :: cs => (escape? cs).bind fun (c, rest) => prepend c (basicBody fuel rest)
  | fuel + 1, c :: cs => if isPrintable c then prepend c (basicBody fuel cs) else none

/-- The rest of a string between single quotes. -/
def literalBody : List Char → Option (List Char × List Char)
  | [] => none
  | '\x27' :: cs => some ([], cs)
  | c :: cs => if isPrintable c then prepend c (literalBody cs) else none

/-- Behind three closing quotes, up to two more belong to the string. -/
def closingQuotes (quote : Char) : List Char → List Char × List Char
  | c :: d :: cs =>
    if c = quote && d = quote then ([quote, quote], cs)
    else if c = quote then ([quote], d :: cs)
    else ([], c :: d :: cs)
  | [c] => if c = quote then ([quote], []) else ([], [c])
  | [] => ([], [])

/-- The rest of a string between three quotes. A line break is a line feed, however it is written.
If `escapes` is set, backslashes escape, and one at the end of a line takes away the line break and all
spaces and line breaks after it. -/
def blockBody (quote : Char) (escapes : Bool) : Nat → List Char → Option (List Char × List Char)
  | 0, _ | _, [] => none
  | fuel + 1, c :: cs =>
    if c = quote then
      match cs with
      | d :: e :: rest =>
        if d = quote && e = quote then some (closingQuotes quote rest)
        else prepend c (blockBody quote escapes fuel cs)
      | _ => none
    else if escapes && c = '\\' then
      match newline? (skipSpace cs) with
      | some next => blockBody quote escapes fuel (skipBreaks next)
      | none => (escape? cs).bind fun (c, rest) => prepend c (blockBody quote escapes fuel rest)
    else
      match newline? (c :: cs) with
      | some next => prepend '\n' (blockBody quote escapes fuel next)
      | none => if isPrintable c then prepend c (blockBody quote escapes fuel cs) else none

/-- A line break right behind three opening quotes does not count. -/
def afterOpening (cs : List Char) : List Char := (newline? cs).getD cs

/-- A string in one line, quotes included. -/
def lineString? : List Char → Option (String × List Char)
  | '\x22' :: cs => (basicBody (cs.length + 1) cs).map fun (text, rest) => (String.ofList text, rest)
  | '\x27' :: cs => (literalBody cs).map fun (text, rest) => (String.ofList text, rest)
  | _ => none

/-- A string of any form, quotes included. -/
def string? : List Char → Option (String × List Char)
  | '\x22' :: '\x22' :: '\x22' :: cs =>
    (blockBody '\x22' true (cs.length + 1) (afterOpening cs)).map fun (text, rest) =>
      (String.ofList text, rest)
  | '\x27' :: '\x27' :: '\x27' :: cs =>
    (blockBody '\x27' false (cs.length + 1) (afterOpening cs)).map fun (text, rest) =>
      (String.ofList text, rest)
  | cs => lineString? cs

/-! ### Keys -/

def isBareKey (c : Char) : Bool := c.isAlphanum || c == '_' || c == '-'

def simpleKey? (cs : List Char) : Option (String × List Char) :=
  match cs.takeWhile isBareKey with
  | [] => lineString? cs
  | bare => some (String.ofList bare, cs.dropWhile isBareKey)

/-- One or more parts with points between them. -/
def keyParts? : Nat → List Char → Option (List String × List Char)
  | 0, _ => none
  | fuel + 1, cs => do
    let (part, rest) ← simpleKey? (skipSpace cs)
    match skipSpace rest with
    | '.' :: next =>
      let (parts, last) ← keyParts? fuel next
      some (part :: parts, last)
    | next => some ([part], next)

/-- Keys have fewer parts than this, and arrays and inline tables nest less deep. -/
def depthLimit : Nat := 80

/-- A key and what follows it. -/
def key? (cs : List Char) : Option (List String × List Char) :=
  (keyParts? (cs.length + 1) cs).bind fun (parts, rest) =>
    if parts.length < depthLimit then some (parts, rest) else none

end TextCommand.Toml
