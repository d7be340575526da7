import GridRobot.World.Edge

/-!
# Conditions

What a script can ask about the world. A condition only looks.
-/

namespace GridRobot

inductive Condition where
  | frontIsClear
  | frontIsBlocked
  | leftIsClear
  | leftIsBlocked
  | rightIsClear
  | rightIsBlocked
  | beepersPresent
  | noBeepersPresent
  | beepersInBag
  | noBeepersInBag
  | facing (direction : Direction)
  | notFacing (direction : Direction)
  deriving DecidableEq, Repr, Inhabited

namespace Condition

def all : List Condition :=
  [.frontIsClear, .frontIsBlocked, .leftIsClear, .leftIsBlocked, .rightIsClear, .rightIsBlocked,
    .beepersPresent, .noBeepersPresent, .beepersInBag, .noBeepersInBag,
    .facing .north, .facing .south, .facing .east, .facing .west,
    .notFacing .north, .notFacing .south, .notFacing .east, .notFacing .west]

def name : Condition → String
  | .frontIsClear => "front_is_clear"
  | .frontIsBlocked => "front_is_blocked"
  | .leftIsClear => "left_is_clear"
  | .leftIsBlocked => "left_is_blocked"
  | .rightIsClear => "right_is_clear"
  | .rightIsBlocked => "right_is_blocked"
  | .beepersPresent => "beepers_present"
  | .noBeepersPresent => "no_beepers_present"
  | .beepersInBag => "beepers_in_bag"
  | .noBeepersInBag => "no_beepers_in_bag"
  | .facing .north => "facing_north"
  | .facing .south => "facing_south"
  | .facing .east => "facing_east"
  | .facing .west => "facing_west"
  | .notFacing .north => "not_facing_north"
  | .notFacing .south => "not_facing_south"
  | .notFacing .east => "not_facing_east"
  | .notFacing .west => "not_facing_west"

def ofName? (name : String) : Option Condition := all.find? (·.name == name)

/-- Whether a condition is true of a world. -/
def holds (w : World) : Condition → Bool
  | .frontIsClear => w.isClear w.agent.cell w.agent.facing
  | .frontIsBlocked => w.isBlocked w.agent.cell w.agent.facing
  | .leftIsClear => w.isClear w.agent.cell w.agent.facing.turnLeft
  | .leftIsBlocked => w.isBlocked w.agent.cell w.agent.facing.turnLeft
  | .rightIsClear => w.isClear w.agent.cell w.agent.facing.turnRight
  | .rightIsBlocked => w.isBlocked w.agent.cell w.agent.facing.turnRight
  | .beepersPresent => w.beepersAt w.agent.cell != 0
  | .noBeepersPresent => w.beepersAt w.agent.cell == 0
  | .beepersInBag => w.bag.hasBeepers
  | .noBeepersInBag => !w.bag.hasBeepers
  | .facing d => w.agent.facing == d
  | .notFacing d => w.agent.facing != d

end Condition

end GridRobot
