/-!
# TOML values and the tables they are put into

While a document is read, a table remembers how it came about: a path may pass through tables that
were only implied by longer headers, a dotted key may add to tables made by dotted keys, and nothing
may be declared or assigned twice.
-/

namespace TextCommand.Toml

inductive Value where
  | text (s : String)
  | integer (n : Int)
  | boolean (b : Bool)
  /-- a floating point number, as written -/
  | float (lexeme : String)
  /-- a date, a time or both, as written -/
  | moment (lexeme : String)
  | array (items : List Value)
  | table (entries : List (String × Value))

/-- How a table came about. -/
inductive Origin where
  /-- on the way to a table that a header declares -/
  | implied
  /-- by a dotted key -/
  | dotted
  /-- by a header of its own -/
  | declared
deriving DecidableEq

inductive Item where
  | value (v : Value)
  | table (origin : Origin) (entries : List (String × Item))
  /-- an array of tables; the last one is still open -/
  | tables (elements : List (List (String × Item)))

abbrev Entries := List (String × Item)

/-! ### Finished items -/

mutual

def Item.toValue : Item → Value
  | .value v => v
  | .table _ entries => .table (entriesToValues entries)
  | .tables elements => .array (elementsToValues elements)

def entriesToValues : Entries → List (String × Value)
  | [] => []
  | (key, item) :: entries => (key, item.toValue) :: entriesToValues entries

def elementsToValues : List Entries → List Value
  | [] => []
  | entries :: elements => .table (entriesToValues entries) :: elementsToValues elements

end

/-! ### Changing one entry -/

/-- Replaces or adds what stands under a key, unless the change is refused. -/
def alterEntry (key : String) (change : Option Item → Option Item) : Entries → Option Entries
  | [] => (change none).map fun item => [(key, item)]
  | (k, item) :: entries =>
    if k = key then (change (some item)).map fun item => (key, item) :: entries
    else (alterEntry key change entries).map ((k, item) :: ·)

/-- Changes the last one of several tables. -/
def alterLast (change : Entries → Option Entries) : List Entries → Option (List Entries)
  | [] => none
  | [entries] => (change entries).map fun entries => [entries]
  | entries :: elements => (alterLast change elements).map (entries :: ·)

/-- Follows a header's path and changes what stands under its last key; tables that are missing on
the way are implied. -/
def alterAt (change : Option Item → Option Item) : List String → Entries → Option Entries
  | [], _ => none
  | [key], entries => alterEntry key change entries
  | key :: path, entries =>
    alterEntry key (fun item =>
      match item with
      | none => (alterAt change path []).map (.table .implied)
      | some (.table origin inner) => (alterAt change path inner).map (.table origin)
      | some (.tables elements) => (alterLast (alterAt change path) elements).map .tables
      | some (.value _) => none) entries

/-- The effect of a header `[path]`. -/
def declareTable (path : List String) (entries : Entries) : Option Entries :=
  alterAt (fun item =>
    match item with
    | none => some (.table .declared [])
    | some (.table .implied inner) => some (.table .declared inner)
    | _ => none) path entries

/-- The effect of a header `[[path]]`. -/
def declareElement (path : List String) (entries : Entries) : Option Entries :=
  alterAt (fun item =>
    match item with
    | none => some (.tables [[]])
    | some (.tables elements) => some (.tables (elements ++ [[]]))
    | _ => none) path entries

/-- Changes the table that the last header opened; the empty path is the document itself. -/
def alterOpen (change : Entries → Option Entries) (path : List String) (entries : Entries) :
    Option Entries :=
  if path.isEmpty then change entries
  else
    alterAt (fun item =>
      match item with
      | some (.table origin inner) => (change inner).map (.table origin)
      | some (.tables elements) => (alterLast change elements).map .tables
      | _ => none) path entries

/-- The effect of `path.key = value` in a table. -/
def assign (key : String) (v : Value) : List String → Entries → Option Entries
  | [], entries =>
    alterEntry key (fun item => if item.isNone then some (.value v) else none) entries
  | step :: path, entries =>
    alterEntry step (fun item =>
      match item with
      | none => (assign key v path []).map (.table .dotted)
      | some (.table origin inner) =>
        if origin = .declared || path.isEmpty && origin != .dotted then none
        else (assign key v path inner).map (.table origin)
      | some (.tables elements) =>
        if path.isEmpty then none
        else (alterLast (assign key v path) elements).map .tables
      | some (.value _) => none) entries

/-- Assigns to a key given with all its parts. -/
def assignPath (path : List String) (v : Value) (entries : Entries) : Option Entries :=
  match path.getLast? with
  | none => none
  | some key => assign key v path.dropLast entries

end TextCommand.Toml
