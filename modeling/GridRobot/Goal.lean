import GridRobot.World.Basic

/-!
# Comparing a world with a goal

Only the robot's pose and the beepers count. The differences are listed with the pose first and then
cell by cell in ascending order.
-/

namespace GridRobot

/-- One way in which a world differs from its goal. -/
inductive Mismatch where
  | pose (expected actual : Pose)
  | beepers (cell : Position) (expected actual : UInt32)
  deriving DecidableEq, Repr

namespace Mismatch

def message : Mismatch → String
  | .pose expected actual =>
      "agent should be at " ++ expected.render ++ ", is at " ++ actual.render
  | .beepers cell expected actual =>
      "cell " ++ cell.render ++ " should hold " ++ showWord expected ++ " beeper(s), holds " ++
        showWord actual

end Mismatch

namespace Position

/-- An ascending list with one more cell. -/
def insert (p : Position) : List Position → List Position
  | [] => [p]
  | q :: qs => if p < q then p :: q :: qs else if p = q then q :: qs else q :: insert p qs

end Position

namespace World

/-- The cells that hold beepers in one of two worlds, ascending. -/
def beeperCells (actual goal : World) : List Position :=
  actual.beepers.cells.foldr Position.insert goal.beepers.cells

/-- The difference in the robot's pose, if there is one. -/
def poseMismatch (actual goal : World) : List Mismatch :=
  if actual.agent = goal.agent then [] else [.pose goal.agent actual.agent]

/-- The difference on one cell, if there is one. -/
def beeperMismatch? (actual goal : World) (cell : Position) : Option Mismatch :=
  if goal.beepersAt cell = actual.beepersAt cell then none
  else some (.beepers cell (goal.beepersAt cell) (actual.beepersAt cell))

/-- All differences between a world and its goal. -/
def mismatches (actual goal : World) : List Mismatch :=
  poseMismatch actual goal ++ (beeperCells actual goal).filterMap (beeperMismatch? actual goal)

def reaches (actual goal : World) : Bool := (mismatches actual goal).isEmpty

end World

end GridRobot
