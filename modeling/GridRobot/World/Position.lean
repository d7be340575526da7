import GridRobot.Direction
import GridRobot.Text.Numeral

/-!
# Cells, poses and walls

Coordinates are 32-bit words, counted from one inside a grid; cells outside every grid are values like
any other. Cells are ordered by `x` and then by `y`.
-/

namespace GridRobot

/-- The next word, if there is one. -/
def up? (n : UInt32) : Option UInt32 := if n.toNat + 1 < UInt32.size then some (n + 1) else none

/-- The word before, if there is one. -/
def down? (n : UInt32) : Option UInt32 := if n = 0 then none else some (n - 1)

/-- The next word; the greatest one stays. -/
def upOrStay (n : UInt32) : UInt32 := (up? n).getD n

/-- A cell of the grid, or a point outside it. -/
structure Position where
  x : UInt32
  y : UInt32
  deriving DecidableEq, Repr, Inhabited

namespace Position

/-- The neighbour one step away, as long as its coordinates are words; the grid plays no part. -/
def step? (p : Position) : Direction → Option Position
  | .north => (up? p.y).map fun y => { p with y }
  | .east => (up? p.x).map fun x => { p with x }
  | .south => (down? p.y).map fun y => { p with y }
  | .west => (down? p.x).map fun x => { p with x }

instance : LT Position := ⟨fun p q => p.x < q.x ∨ p.x = q.x ∧ p.y < q.y⟩

theorem lt_def (p q : Position) : p < q ↔ p.x < q.x ∨ p.x = q.x ∧ p.y < q.y := Iff.rfl

instance (p q : Position) : Decidable (p < q) :=
  inferInstanceAs (Decidable (p.x < q.x ∨ p.x = q.x ∧ p.y < q.y))

theorem lt_iff_toNat (p q : Position) :
    p < q ↔ p.x.toNat < q.x.toNat ∨ p.x.toNat = q.x.toNat ∧ p.y.toNat < q.y.toNat := by
  simp only [lt_def, UInt32.lt_iff_toNat_lt, UInt32.toNat_inj]

theorem lt_trans {p q r : Position} (h : p < q) (h' : q < r) : p < r := by
  rw [lt_iff_toNat] at *
  omega

theorem lt_irrefl (p : Position) : ¬ p < p := by
  rw [lt_iff_toNat]
  omega

theorem ne_of_lt {p q : Position} (h : p < q) : p ≠ q := fun e => lt_irrefl q (e ▸ h)

theorem lt_of_not_lt {p q : Position} (h : ¬ p < q) (hne : q ≠ p) : q < p := by
  have hxy : ¬ (q.x.toNat = p.x.toNat ∧ q.y.toNat = p.y.toNat) := by
    intro ⟨hx, hy⟩
    apply hne
    cases p
    cases q
    simp_all [UInt32.toNat_inj]
  rw [lt_iff_toNat] at *
  omega

/-- A cell as it is written in messages. -/
def render (p : Position) : String := "(" ++ showWord p.x ++ ", " ++ showWord p.y ++ ")"

end Position

/-- Where the robot stands and which way it faces. -/
structure Pose where
  cell : Position
  facing : Direction
  deriving DecidableEq, Repr, Inhabited

namespace Pose

/-- Where the robot stands unless told otherwise. -/
def start : Pose := ⟨⟨1, 1⟩, .east⟩

def render (p : Pose) : String := p.cell.render ++ " facing " ++ p.facing.name

end Pose

/-- A wall on one side of a cell. It blocks that side, and the same edge seen from the neighbour. -/
structure Wall where
  cell : Position
  side : Direction
  deriving DecidableEq, Repr, Inhabited

end GridRobot
