import GridRobot.World.Bag
import GridRobot.World.Layout

/-!
# Worlds

A world is a grid with walls, beepers, the robot and its bag. The sides of the grid are not checked
here: a world may have its robot, its walls and its beepers anywhere.
-/

namespace GridRobot

structure World where
  width : UInt32
  height : UInt32
  walls : List Wall
  beepers : Layout
  agent : Pose
  bag : Bag
  deriving DecidableEq

namespace World

/-- An empty grid with the robot in its first cell. -/
def ofSize (width height : UInt32) : World := ⟨width, height, [], .empty, .start, .empty⟩

/-- The world described by nothing. -/
def initial : World := ofSize 1 1

instance : Inhabited World := ⟨initial⟩

/-- Whether a cell belongs to the grid. -/
def inBounds (w : World) (p : Position) : Bool :=
  1 ≤ p.x && p.x ≤ w.width && 1 ≤ p.y && p.y ≤ w.height

def addWall (w : World) (wall : Wall) : World := { w with walls := w.walls ++ [wall] }

def setBeepers (w : World) (cell : Position) (count : UInt32) : World :=
  { w with beepers := w.beepers.set cell count }

def addBeeper (w : World) (cell : Position) : World := { w with beepers := w.beepers.add cell }

/-- The world with one beeper less on a cell, if the cell holds one. -/
def removeBeeper? (w : World) (cell : Position) : Option World :=
  (w.beepers.remove? cell).map fun beepers => { w with beepers }

def beepersAt (w : World) (cell : Position) : UInt32 := w.beepers.count cell

end World

end GridRobot
