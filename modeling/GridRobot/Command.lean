import GridRobot.Run.Error

/-!
# Commands

The four things the robot can do. A command that cannot be carried out leaves the world as it was.
-/

namespace GridRobot

inductive Command where
  | move
  | turnLeft
  | pickBeeper
  | putBeeper
  deriving DecidableEq, Repr, Inhabited

namespace Command

def all : List Command := [.move, .turnLeft, .pickBeeper, .putBeeper]

def name : Command → String
  | .move => "move"
  | .turnLeft => "turn_left"
  | .pickBeeper => "pick_beeper"
  | .putBeeper => "put_beeper"

def ofName? (name : String) : Option Command := all.find? (·.name == name)

/-- The world after a move, which needs a way out of the cell. -/
def moved (w : World) : Except RunError World :=
  if w.isBlocked w.agent.cell w.agent.facing then .error (.movementBlocked w.agent)
  else
    match w.agent.cell.step? w.agent.facing with
    | some cell => .ok { w with agent := { w.agent with cell } }
    | none => .error (.movementBlocked w.agent)

/-- The world after a beeper has gone from the robot's cell into the bag. -/
def picked (w : World) : Except RunError World :=
  match w.removeBeeper? w.agent.cell with
  | some w' => .ok { w' with bag := w'.bag.give }
  | none => .error (.noBeeperHere w.agent.cell)

/-- The world after a beeper has gone from the bag onto the robot's cell. -/
def put (w : World) : Except RunError World :=
  match w.bag.take? with
  | some bag => .ok ({ w with bag }.addBeeper w.agent.cell)
  | none => .error .bagEmpty

/-- What a command does to a world. -/
def apply (w : World) : Command → Except RunError World
  | .move => moved w
  | .turnLeft => .ok { w with agent := { w.agent with facing := w.agent.facing.turnLeft } }
  | .pickBeeper => picked w
  | .putBeeper => put w

end Command

end GridRobot
