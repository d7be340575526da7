import GridRobot.Script.Block
import GridRobot.Script.Statement

/-!
# Lines as they run

Of the text of a line only its number, its margin and its statement matter for a run.
-/

namespace GridRobot

structure Line where
  number : Nat
  /-- The indentation; none for a blank line. -/
  margin? : Option Nat
  statement : Statement
  deriving DecidableEq, Repr, Inhabited

namespace Line

def read (number : Nat) (t : Text) : Line := ⟨number, t.margin?, .read t⟩

/-- Whether a run stops at the line to count it. -/
def isCounted (l : Line) : Bool := l.statement != .skip

/-- The block at the front of a list of lines. -/
def block (lines : List Line) : List Line := takeBlock Line.margin? lines

/-- What follows the block at the front. -/
def afterBlock (lines : List Line) : List Line := lines.drop (block lines).length

theorem length_afterBlock_le (lines : List Line) : (afterBlock lines).length ≤ lines.length := by
  simp [afterBlock]

end Line

/-- The lines of a block, read. -/
def Block.read (b : Block) : List Line :=
  b.lines.mapIdx fun i t => Line.read (b.lineNumber i) t

end GridRobot
