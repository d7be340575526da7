/-!
# Blank characters

Two classes of blank characters are in use. `isBlank` is the White_Space property: it decides which
lines count as empty, how deep a line is indented and what is trimmed. `isGap` is the smaller ASCII
class that may stand between the tokens of a procedure header or of a world declaration.
-/

namespace GridRobot

/-- Text is worked on character by character. -/
abbrev Text := List Char

namespace Text

/-- The characters with the White_Space property. -/
def isBlank (c : Char) : Bool :=
  let n := c.toNat
  (0x9 ≤ n && n ≤ 0xD) || n == 0x20 || n == 0x85 || n == 0xA0 || n == 0x1680 ||
    (0x2000 ≤ n && n ≤ 0x200A) || n == 0x2028 || n == 0x2029 || n == 0x202F || n == 0x205F ||
    n == 0x3000

/-- Space, tab, line feed, form feed and carriage return; the vertical tab is not among them. -/
def isGap (c : Char) : Bool :=
  c == ' ' || c == '\t' || c == '\n' || c == '\x0c' || c == '\r'

theorem isBlank_of_isGap {c : Char} (h : isGap c = true) : isBlank c = true := by
  simp only [isGap, Bool.or_eq_true, beq_iff_eq] at h
  rcases h with (((rfl | rfl) | rfl) | rfl) | rfl <;> decide

def trimStart (t : Text) : Text := t.dropWhile isBlank

def trimEnd (t : Text) : Text := (t.reverse.dropWhile isBlank).reverse

/-- The text without the blank characters at either end. -/
def trim (t : Text) : Text := trimEnd (trimStart t)

/-- Nothing but blank characters. -/
def isEmptyLine (t : Text) : Bool := t.all isBlank

/-- The number of blank characters before the first other one, each counting one. -/
def indentation (t : Text) : Nat := (t.takeWhile isBlank).length

end Text

end GridRobot
