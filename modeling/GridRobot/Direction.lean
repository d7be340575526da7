import GridRobot.Text.Word

/-!
# Compass directions

North is towards greater `y` and east towards greater `x`. The robot's only turn is the left turn, and
the right turn and the reversal are made of it.
-/

namespace GridRobot

inductive Direction where
  | north
  | east
  | south
  | west
  deriving DecidableEq, Repr, Inhabited

namespace Direction

def all : List Direction := [.north, .east, .south, .west]

def name : Direction → String
  | .north => "north"
  | .east => "east"
  | .south => "south"
  | .west => "west"

/-- A quarter turn counter-clockwise. -/
def turnLeft : Direction → Direction
  | .north => .west
  | .west => .south
  | .south => .east
  | .east => .north

def turnRight (d : Direction) : Direction := d.turnLeft.turnLeft.turnLeft

def opposite (d : Direction) : Direction := d.turnLeft.turnLeft

/-- The unit step in this direction. -/
def delta : Direction → Int × Int
  | .north => (0, 1)
  | .east => (1, 0)
  | .south => (0, -1)
  | .west => (-1, 0)

/-- The direction with this very name. -/
def ofName? (name : String) : Option Direction := all.find? (·.name == name)

/-- The direction a text names in any letter case, blanks around it aside. -/
def read? (t : Text) : Option Direction := ofName? (String.ofList (t.trim.toSmallAscii))

/-- The complaint about a text that names no direction. -/
def unknownMessage (given : String) : String := "unknown direction '" ++ given ++ "'"

@[simp] theorem turnLeft_four (d : Direction) : d.turnLeft.turnLeft.turnLeft.turnLeft = d := by
  cases d <;> rfl

@[simp] theorem opposite_opposite (d : Direction) : d.opposite.opposite = d := by cases d <;> rfl

end Direction

end GridRobot
