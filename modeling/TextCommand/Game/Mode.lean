/-!
# Game modes
-/

namespace TextCommand.Game

inductive Mode where
  | survival | creative | adventure | spectator
deriving DecidableEq, Repr

namespace Mode

def all : List Mode := [.survival, .creative, .adventure, .spectator]

def name : Mode → String
  | .survival => "survival"
  | .creative => "creative"
  | .adventure => "adventure"
  | .spectator => "spectator"

def ofName? (word : String) : Option Mode := all.find? (·.name == word)

theorem ofName?_name (m : Mode) : ofName? m.name = some m := by cases m <;> decide

end Mode

end TextCommand.Game
