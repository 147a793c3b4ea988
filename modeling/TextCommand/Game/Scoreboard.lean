import TextCommand.Number.Integer

/-!
# The scoreboard

Named objectives, and for each objective the players' scores. Objectives are kept in the order of
their UTF-8 bytes. A score can be written only under an objective that exists, so a scoreboard
never holds a score without its objective.
-/

namespace TextCommand.Game

/-- The sort key of names. -/
def utf8Bytes (s : String) : List UInt8 := s.toUTF8.data.toList

/-- Puts a new name in front of the first one that is greater. -/
def insertName (name : String) : List String → List String
  | [] => [name]
  | other :: names =>
    if utf8Bytes name < utf8Bytes other then name :: other :: names
    else other :: insertName name names

theorem mem_insertName {a name : String} {names : List String} :
    a ∈ insertName name names ↔ a = name ∨ a ∈ names := by
  induction names with
  | nil => simp [insertName]
  | cons other names ih =>
    simp only [insertName]
    split
    · simp
    · simp only [List.mem_cons, ih]
      grind

/-- Replaces the entry of a key, or adds one at the end. -/
def putEntry {κ α : Type} [BEq κ] (key : κ) (value : α) : List (κ × α) → List (κ × α)
  | [] => [(key, value)]
  | (k, v) :: entries =>
    if k == key then (key, value) :: entries else (k, v) :: putEntry key value entries

theorem lookup_putEntry {κ α : Type} [BEq κ] [LawfulBEq κ] (key k : κ) (value : α)
    (entries : List (κ × α)) :
    (putEntry key value entries).lookup k = if k == key then some value else entries.lookup k := by
  induction entries with
  | nil => simp only [putEntry, List.lookup_nil, List.lookup_cons]; grind
  | cons entry entries ih =>
    obtain ⟨k', v⟩ := entry
    simp only [putEntry]
    split <;> simp only [List.lookup_cons] <;> grind

structure Scoreboard where
  objectives : List String
  /-- scores by objective and player -/
  scores : List ((String × String) × Int32)
deriving DecidableEq

namespace Scoreboard

def empty : Scoreboard := ⟨[], []⟩

def score? (board : Scoreboard) (player objective : String) : Option Int32 :=
  board.scores.lookup (objective, player)

/-- Adds an objective that is not there yet. -/
def addObjective? (board : Scoreboard) (objective : String) : Option Scoreboard :=
  if objective ∈ board.objectives then none
  else some { board with objectives := insertName objective board.objectives }

/-- Replaces a player's score, counted as zero if there is none, under an objective that exists. -/
def update? (board : Scoreboard) (player objective : String) (change : Int32 → Int32) :
    Option (Int32 × Scoreboard) :=
  if objective ∈ board.objectives then
    let score := change ((board.score? player objective).getD 0)
    some (score, { board with scores := putEntry (objective, player) score board.scores })
  else none

end Scoreboard

end TextCommand.Game
