import GridRobot.World.Basic

/-!
# Edges

The way out of a cell is blocked at the border of the grid and by a wall on either side of the edge.
-/

namespace GridRobot

namespace World

/-- Whether a cell lies at the grid's border, or beyond it, in a direction. -/
def atBorder (w : World) (p : Position) : Direction → Bool
  | .north => w.height ≤ p.y
  | .east => w.width ≤ p.x
  | .south => p.y ≤ 1
  | .west => p.x ≤ 1

/-- Whether some wall stands on the edge between a cell and its neighbour, told from either of them. -/
def walled (w : World) (p : Position) (d : Direction) (neighbour : Position) : Bool :=
  w.walls.any fun wall => wall = ⟨p, d⟩ || wall = ⟨neighbour, d.opposite⟩

/-- Whether no move leads out of a cell in a direction. -/
def isBlocked (w : World) (p : Position) (d : Direction) : Bool :=
  w.atBorder p d ||
    match p.step? d with
    | some neighbour => w.walled p d neighbour
    | none => true

def isClear (w : World) (p : Position) (d : Direction) : Bool := !w.isBlocked p d

end World

end GridRobot
