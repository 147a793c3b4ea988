import TextCommand.Toml.Scalar

/-!
# TOML documents

A document is a sequence of lines: assignments, headers of tables and of elements of arrays of
tables, comments, and blank lines. `Document.read?` gives the table that it stands for, or `none` if
the text is malformed or defines something twice.
-/

namespace TextCommand.Toml

mutual

/-- A value; `depth` counts the arrays and inline tables around it. -/
def value? : Nat → Nat → List Char → Option (Value × List Char)
  | 0, _, _ | _, _, [] => none
  | fuel + 1, depth, c :: cs =>
    if c = '\x22' || c = '\x27' then
      (string? (c :: cs)).map fun (text, rest) => (.text text, rest)
    else if c = '[' then
      if depth + 1 < depthLimit then
        (items? fuel (depth + 1) cs).map fun (items, rest) => (.array items, rest)
      else none
    else if c = '\x7b' then
      if depth + 1 < depthLimit then
        match skipSpace cs with
        | '\x7d' :: rest => some (.table [], rest)
        | rest => (pairs? fuel (depth + 1) [] rest).map fun (entries, rest) =>
            (.table (entriesToValues entries), rest)
      else none
    else scalar? (c :: cs)

/-- The rest of an array behind its bracket or a comma. -/
def items? : Nat → Nat → List Char → Option (List Value × List Char)
  | 0, _, _ => none
  | fuel + 1, depth, cs => do
    match ← skipLines (cs.length + 1) cs with
    | ']' :: rest => some ([], rest)
    | cs =>
      let (item, rest) ← value? fuel depth cs
      match ← skipLines (rest.length + 1) rest with
      | ']' :: rest => some ([item], rest)
      | ',' :: rest =>
        let (items, rest) ← items? fuel depth rest
        some (item :: items, rest)
      | _ => none

/-- The rest of an inline table that is not empty, behind its brace or a comma. -/
def pairs? : Nat → Nat → Entries → List Char → Option (Entries × List Char)
  | 0, _, _, _ => none
  | fuel + 1, depth, entries, cs => do
    let (path, rest) ← key? cs
    match rest with
    | '=' :: rest =>
      let (v, rest) ← value? fuel depth (skipSpace rest)
      let entries ← assignPath path v entries
      match skipSpace rest with
      | '\x7d' :: rest => some (entries, rest)
      | ',' :: rest => pairs? fuel depth entries rest
      | _ => none
    | _ => none

end

/-- A document as far as it was read: its entries, and the path of the last header. -/
structure Document where
  entries : Entries
  path : List String

namespace Document

def empty : Document := ⟨[], []⟩

/-- Takes one line, which is not blank, and answers what follows it. -/
def line? (doc : Document) (cs : List Char) : Option (Document × List Char) :=
  match cs with
  | '[' :: '[' :: rest => do
    let (path, rest) ← key? rest
    match rest with
    | ']' :: ']' :: rest =>
      let entries ← declareElement path doc.entries
      some (⟨entries, path⟩, ← restOfLine? rest)
    | _ => none
  | '[' :: rest => do
    let (path, rest) ← key? rest
    match rest with
    | ']' :: rest =>
      let entries ← declareTable path doc.entries
      some (⟨entries, path⟩, ← restOfLine? rest)
    | _ => none
  | cs => do
    let (path, rest) ← key? cs
    match rest with
    | '=' :: rest =>
      let (v, rest) ← value? (2 * rest.length + 2) 0 (skipSpace rest)
      let entries ← alterOpen (assignPath path v) doc.path doc.entries
      some (⟨entries, doc.path⟩, ← restOfLine? rest)
    | _ => none

/-- Takes all lines. -/
def lines? : Nat → Document → List Char → Option Document
  | 0, _, _ => none
  | fuel + 1, doc, cs =>
    match skipSpace cs with
    | [] => some doc
    | '#' :: rest => (restOfLine? ('#' :: rest)).bind (lines? fuel doc)
    | cs =>
      match newline? cs with
      | some rest => lines? fuel doc rest
      | none => (doc.line? cs).bind fun (doc, rest) => lines? fuel doc rest

/-- The table that a text stands for; a byte order mark in front of it does not count. -/
def read? (s : String) : Option (List (String × Value)) :=
  let cs := match s.toList with
    | '\ufeff' :: cs => cs
    | cs => cs
  (lines? (cs.length + 1) empty cs).map fun doc => entriesToValues doc.entries

end Document

end TextCommand.Toml
