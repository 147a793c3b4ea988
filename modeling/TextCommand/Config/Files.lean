/-!
# Files

The files and directories below a working directory, and how a path is followed through them: each
part of a path but the last must be a directory, and so must the last if a slash follows it. Of what
is outside only the directories above are known, and the few places that every POSIX system has.
-/

namespace TextCommand

inductive FileEntry where
  | file (contents : ByteArray)
  | directory

/-- Entries by the parts of their paths; directories on the way to an entry exist as well. -/
structure FileTree where
  entries : List (List String × FileEntry)

/-- The parts of a path that name something. -/
def pathParts (path : String) : List String :=
  ((path.splitOn "/").filter fun part => part != "" && part != ".")

/-- Where a part of a path can lead to. -/
inductive Place where
  /-- below the working directory -/
  | inside (parts : List String)
  /-- a directory above the working directory -/
  | above
  /-- below the root -/
  | rooted (parts : List String)

namespace Place

/-- The directory that contains a place; the root contains itself. -/
def parent : Place → Place
  | inside [] | above => above
  | inside parts => inside parts.dropLast
  | rooted parts => rooted parts.dropLast

/-- A place in a directory; nothing is known of the names above the working directory. -/
def child? (name : String) : Place → Option Place
  | inside parts => some (inside (parts ++ [name]))
  | above => none
  | rooted parts => some (rooted (parts ++ [name]))

/-- The next place on a path. -/
def step? (part : String) (place : Place) : Option Place :=
  if part = "" || part = "." then some place
  else if part = ".." then some place.parent
  else place.child? part

end Place

/-- What stands below the root of every POSIX system; the null device reads as an empty file. -/
def rootedEntry? : List String → Option FileEntry
  | [] | ["dev"] | ["tmp"] => some .directory
  | ["dev", "null"] => some (.file .empty)
  | _ => none

namespace FileTree

def ofList (files : List (String × FileEntry)) : FileTree :=
  ⟨files.map fun (path, entry) => (pathParts path, entry)⟩

/-- What stands at a place. -/
def at? (tree : FileTree) : Place → Option FileEntry
  | .inside parts =>
    match tree.entries.lookup parts with
    | some entry => some entry
    | none =>
      if parts.isEmpty || tree.entries.any fun (other, _) => parts.isPrefixOf other then
        some .directory
      else none
  | .above => some .directory
  | .rooted parts => rootedEntry? parts

/-- Follows the parts of a path from a place, which must be a directory if any part follows. -/
def follow (tree : FileTree) : Place → List String → Option FileEntry
  | place, [] => tree.at? place
  | place, part :: parts =>
    match tree.at? place with
    | some .directory => (place.step? part).bind fun place => tree.follow place parts
    | _ => none

/-- Paths have fewer bytes than this. -/
def pathLimit : Nat := 4096

/-- What a path leads to. -/
def lookup (tree : FileTree) (path : String) : Option FileEntry :=
  if path.isEmpty || pathLimit ≤ path.utf8ByteSize then none
  else tree.follow (if path.startsWith "/" then .rooted [] else .inside []) (path.splitOn "/")

end FileTree

/-- The path of something inside a directory. -/
def joinPaths (directory inner : String) : String :=
  if directory.isEmpty || directory.toList.getLast? = some '/' then directory ++ inner
  else directory ++ "/" ++ inner

end TextCommand
