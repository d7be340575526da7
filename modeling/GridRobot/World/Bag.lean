import GridRobot.World.Position

/-!
# The robot's bag

A bag holds a counted number of beepers or an endless supply.
-/

namespace GridRobot

inductive Bag where
  | finite (count : UInt32)
  | unbounded
  deriving DecidableEq, Repr, Inhabited

namespace Bag

def empty : Bag := .finite 0

def count? : Bag → Option UInt32
  | .finite n => some n
  | .unbounded => none

def hasBeepers (b : Bag) : Bool := b != .finite 0

def isUnbounded (b : Bag) : Bool := b == .unbounded

/-- The bag after one beeper is taken out, if it holds one. -/
def take? : Bag → Option Bag
  | .finite n => (down? n).map .finite
  | .unbounded => some .unbounded

/-- The bag after one beeper is put in; a full bag stays as it is. -/
def give : Bag → Bag
  | .finite n => .finite (upOrStay n)
  | .unbounded => .unbounded

def render : Bag → String
  | .finite n => showWord n
  | .unbounded => "infinity"

theorem take?_isSome (b : Bag) : b.take?.isSome = b.hasBeepers := by
  cases b with
  | unbounded => rfl
  | finite n => by_cases h : n = 0 <;> simp [take?, down?, hasBeepers, h]

end Bag

end GridRobot
