import TextCommand.Node.Draft
import TextCommand.Registry

/-!
# The commands of the game console

A scoreboard, teleporting, messages, game modes and help. Every action works on the session that the
source holds, and answers with the session as it leaves it, whether it fails or not.
-/

namespace TextCommand.Game

/-- A step on a session, given the values of a command's arguments: success or failure, and the session
afterwards. -/
abbrev Step := Session → List Value → Except Raised Unit × Session

/-- The action that takes a step on the session of its source. -/
def onSession (step : Step) : Action Source := fun source values =>
  match source.getSession with
  | .error mismatch => (.error (.of (.mismatch mismatch)), source)
  | .ok session =>
    let (result, after) := step session values
    (result, .holding (.session after))

/-- The values are not those of the declared arguments. -/
def misdeclared : Step := fun session _ => (.error (.plain "unexpected argument values"), session)

/-! ### Steps -/

def addObjective : Step
  | session, [.text objective] =>
    match session.scoreboard.addObjective? objective with
    | none => (.error (.plain s!"objective '{objective}' already exists"), session)
    | some board =>
      (.ok (), { session with scoreboard := board }.say s!"Created objective {objective}")
  | session, values => misdeclared session values

def listObjectives : Step
  | session, [] =>
    match session.scoreboard.objectives with
    | [] => (.ok (), session.say "There are no objectives")
    | names => (.ok (), session.say ("Objectives: " ++ ", ".intercalate names))
  | session, values => misdeclared session values

/-- Changes a score and says what it is now. -/
def changeScore (session : Session) (player objective : String) (change : Int32 → Int32) :
    Except Raised Unit × Session :=
  match session.scoreboard.update? player objective change with
  | none => (.error (.plain s!"unknown objective '{objective}'"), session)
  | some (score, board) =>
    (.ok (), { session with scoreboard := board }.say s!"Set {objective} for {player} to {score.toInt}")

def setScore : Step
  | session, [.text player, .text objective, .int score] =>
    changeScore session player objective fun _ => score
  | session, values => misdeclared session values

def addScore : Step
  | session, [.text player, .text objective, .int amount] =>
    changeScore session player objective fun current => Number.clampedAdd current amount
  | session, values => misdeclared session values

def showScore : Step
  | session, [.text player, .text objective] =>
    match session.scoreboard.score? player objective with
    | none => (.error (.plain s!"{player} has no score for {objective}"), session)
    | some score => (.ok (), session.say s!"{player} has {score.toInt} {objective}")
  | session, values => misdeclared session values

def teleport : Step
  | session, [.double x, .double y, .double z] =>
    (.ok (), { session with position := ⟨x, y, z⟩ }.say
      s!"Teleported {session.name} to {x.toText}, {y.toText}, {z.toText}")
  | session, values => misdeclared session values

def sayMessage : Step
  | session, [.text message] => (.ok (), session.say s!"[{session.name}] {message}")
  | session, values => misdeclared session values

def setMode : Step
  | session, [.mode mode] =>
    (.ok (), { session with mode := mode }.say s!"Set own game mode to {mode.name}")
  | session, values => misdeclared session values

def help : Step
  | session, [] => (.ok (), session.say "Commands: scoreboard, tp, say, gamemode, help")
  | session, values => misdeclared session values

/-! ### Permission and suggestions -/

def isOperator (source : Source) : Bool :=
  match source.tryGetSession with
  | none => false
  | some session => session.operator

def suggestObjectives (source : Source) : List String :=
  match source.tryGetSession with
  | none => []
  | some session => session.scoreboard.objectives

/-- The session's position, as the arguments of a teleport. -/
def suggestPosition (source : Source) : List String :=
  match source.tryGetSession with
  | none => []
  | some session =>
    let p := session.position
    [s!"{p.x.toText} {p.y.toText} {p.z.toText}"]

def suggestModes (_ : Source) : List String := Mode.all.map Mode.name

/-! ### The tree -/

def objectivesNode : Node Source :=
  (Draft.new "objectives" |>.description "Manage objectives"
    |>.child (Draft.new "add" |>.description "Create an objective"
      |>.argument .string "objective" "Objective name"
      |>.execute (onSession addObjective) |>.build)
    |>.child (Draft.new "list" |>.description "List objectives"
      |>.execute (onSession listObjectives) |>.build)).build

def playersNode : Node Source :=
  (Draft.new "players" |>.description "Manage player scores"
    |>.child (Draft.new "set" |>.description "Set a player's score"
      |>.argument .string "player" "Player name"
      |>.argument .string "objective" "Objective name"
      |>.argument .int "score" "New score"
      |>.suggests suggestObjectives
      |>.execute (onSession setScore) |>.build)
    |>.child (Draft.new "add" |>.description "Add to a player's score"
      |>.argument .string "player" "Player name"
      |>.argument .string "objective" "Objective name"
      |>.argument .int "amount" "Amount to add"
      |>.suggests suggestObjectives
      |>.execute (onSession addScore) |>.build)
    |>.child (Draft.new "get" |>.description "Show a player's score"
      |>.argument .string "player" "Player name"
      |>.argument .string "objective" "Objective name"
      |>.suggests suggestObjectives
      |>.execute (onSession showScore) |>.build)).build

def scoreboardNode : Node Source :=
  (Draft.new "scoreboard" |>.description "Track player scores"
    |>.child objectivesNode |>.child playersNode).build

def tpNode : Node Source :=
  (Draft.new "tp" |>.description "Teleport to a position"
    |>.argument .double "x" "X coordinate"
    |>.argument .double "y" "Y coordinate"
    |>.argument .double "z" "Z coordinate"
    |>.suggests suggestPosition
    |>.execute (onSession teleport)).build

def sayNode : Node Source :=
  (Draft.new "say" |>.description "Broadcast a message" |>.alsoNamed "echo"
    |>.argument .greedy "message" "Text to send"
    |>.execute (onSession sayMessage)).build

def gamemodeNode : Node Source :=
  (Draft.new "gamemode" |>.description "Change game mode"
    |>.requires isOperator
    |>.argument .mode "mode" "survival, creative, adventure or spectator"
    |>.suggests suggestModes
    |>.execute (onSession setMode)).build

def helpNode : Node Source :=
  (Draft.new "help" |>.description "List commands" |>.execute (onSession help)).build

/-- All commands of the game console. -/
def registry (limit : Option Nat) : Registry Source :=
  Registry.empty limit |>.add scoreboardNode |>.add tpNode |>.add sayNode |>.add gamemodeNode
    |>.add helpNode

end TextCommand.Game
