import TextCommand.Game.Session
import TextCommand.Text.Inspect

/-!
# The source of a command

Commands run on behalf of a source, which holds one object or nothing. An object is fetched by its
exact type; there is no conversion, and the empty source has not even an object of the unit type.
-/

namespace TextCommand

inductive ObjectType where
  | unit | bool | int | long | text | textRef | boxedInt | texts | cell | session
deriving DecidableEq, Repr

/-- The name under which a type appears in messages. -/
def ObjectType.name : ObjectType → String
  | .unit => "()"
  | .bool => "bool"
  | .int => "i32"
  | .long => "i64"
  | .text => "alloc::string::String"
  | .textRef => "&str"
  | .boxedInt => "alloc::boxed::Box<i32>"
  | .texts => "alloc::vec::Vec<alloc::string::String>"
  | .cell => "core::cell::Cell<i32>"
  | .session => "cmdtree::cli::demo::ConsoleSession"

/-- What a source can hold; the integer in a `cell` is one that commands may change. -/
inductive Object where
  | unit
  | bool (b : Bool)
  | int (n : Int32)
  | long (n : Int64)
  | text (s : String)
  | textRef (s : String)
  | boxedInt (n : Int32)
  | texts (items : List String)
  | cell (n : Int32)
  | session (s : Game.Session)
deriving DecidableEq

def Object.type : Object → ObjectType
  | .unit => .unit
  | .bool _ => .bool
  | .int _ => .int
  | .long _ => .long
  | .text _ => .text
  | .textRef _ => .textRef
  | .boxedInt _ => .boxedInt
  | .texts _ => .texts
  | .cell _ => .cell
  | .session _ => .session

inductive Source where
  | empty
  | holding (object : Object)
deriving DecidableEq

/-- The source was asked for a type that it does not hold; `held` is `none` for the empty one. -/
structure TypeMismatch where
  requested : ObjectType
  held : Option ObjectType
deriving DecidableEq, Repr

/-- The name of the held type; the empty source goes by the unit type's name. -/
def heldName : Option ObjectType → String
  | none => ObjectType.unit.name
  | some t => t.name

def TypeMismatch.message (m : TypeMismatch) : String :=
  s!"invalid source type: requested {m.requested.name}, source holds {heldName m.held}"

namespace Source

def held : Source → Option ObjectType
  | .empty => none
  | .holding object => some object.type

def isEmpty : Source → Bool
  | .empty => true
  | .holding _ => false

def typeName (s : Source) : String := heldName s.held

/-- The source holds an object of exactly this type. -/
def is (t : ObjectType) (s : Source) : Bool := s.held == some t

def tryGet (t : ObjectType) : Source → Option Object
  | .empty => none
  | .holding object => if object.type = t then some object else none

def get (t : ObjectType) (s : Source) : Except TypeMismatch Object :=
  match s.tryGet t with
  | some object => .ok object
  | none => .error ⟨t, s.held⟩

def tryGetSession : Source → Option Game.Session
  | .holding (.session s) => some s
  | _ => none

def getSession (s : Source) : Except TypeMismatch Game.Session :=
  match s.tryGetSession with
  | some session => .ok session
  | none => .error ⟨.session, s.held⟩

def inspect (s : Source) : String :=
  Text.inspectRecord "Source"
    [("type", Text.inspect s.typeName), ("empty", Text.inspectBool s.isEmpty)]

end Source

end TextCommand
