import GridRobot.World.Position

/-!
# Parameters of world declarations

A parameter is looked for anywhere in a text: a pattern is tried at every place from the left, and the
first place where it matches counts. Patterns read `(X, Y)`, alone or followed by `;` and a direction
or a number. Gaps are allowed after the comma and after the semicolon and nowhere else.
-/

namespace GridRobot

namespace Scan

/-- A pattern reads a value off the front of a text and leaves the rest. -/
abbrev Pattern (α : Type) := Text → Option (α × Text)

/-- A run of digits whose value is a 32-bit word. -/
def number : Pattern UInt32 := fun t =>
  let (digits, rest) := Text.spanDigits t
  (Text.word32? digits).map (·, rest)

/-- A cell, written `(X, Y)`. -/
def cell : Pattern Position := fun t => do
  let t ← Text.expect? '(' t
  let (x, t) ← number t
  let t ← Text.expect? ',' t
  let (y, t) ← number t.skipGap
  let t ← Text.expect? ')' t
  return (⟨x, y⟩, t)

/-- A word that names a direction. -/
def direction : Pattern Direction := fun t =>
  let (word, rest) := Text.spanWord t
  (Direction.read? word).map (·, rest)

/-- A cell and, after a semicolon, something else. -/
def cellThen {α : Type} (next : Pattern α) : Pattern (Position × α) := fun t => do
  let (p, t) ← cell t
  let t ← Text.expect? ';' t
  let (a, t) ← next t.skipGap
  return ((p, a), t)

/-- The value of the leftmost match. -/
def leftmost {α : Type} (pattern : Pattern α) : Text → Option α
  | [] => none
  | c :: rest =>
      match pattern (c :: rest) with
      | some (a, _) => some a
      | none => leftmost pattern rest

end Scan

end GridRobot
