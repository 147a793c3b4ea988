import TextCommand.Game.Mode
import TextCommand.Game.Scoreboard
import TextCommand.Number.Binary

/-!
# A console session

Who is at the console, and what the commands of the game have done so far. Lines that commands have
said wait in `output` until they are taken.
-/

namespace TextCommand.Game

structure Position where
  x : Number.Double
  y : Number.Double
  z : Number.Double
deriving DecidableEq

structure Session where
  name : String
  operator : Bool
  scoreboard : Scoreboard
  position : Position
  mode : Mode
  output : List String
deriving DecidableEq

namespace Session

/-- A fresh session stands at the origin, in survival mode, with an empty scoreboard. -/
def start (name : String) (operator : Bool) : Session :=
  { name, operator, scoreboard := .empty, position := ⟨.zero, .zero, .zero⟩, mode := .survival,
    output := [] }

def say (line : String) (s : Session) : Session := { s with output := s.output ++ [line] }

/-- The waiting lines, and the session without them. -/
def takeOutput (s : Session) : List String × Session := (s.output, { s with output := [] })

end Session

end TextCommand.Game
