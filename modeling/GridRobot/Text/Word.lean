import GridRobot.Text.Blank

/-!
# Words and letter case

Names in scripts and keywords in world files are runs of ASCII letters, digits and underscores.
World files are read with letter case folded away. Folding is written out for ASCII and for the two
letters outside ASCII whose small form holds an ASCII letter; every other letter outside ASCII stays
outside ASCII, where no keyword, number or direction can tell it from its small form.
-/

namespace GridRobot

namespace Text

/-- The characters of a name. -/
def isWordChar (c : Char) : Bool := c.isAlphanum || c == '_'

/-- The small form of a character: one or two characters. -/
def smallForm (c : Char) : Text :=
  if c = '\u0130' then ['i', '\u0307']
  else if c = '\u212A' then ['k']
  else [c.toLower]

def toSmall (t : Text) : Text := t.flatMap smallForm

/-- The text with ASCII capitals made small and all else kept. -/
def toSmallAscii (t : Text) : Text := t.map Char.toLower

/-- The longest run of name characters at the front, and what follows it. -/
def spanWord (t : Text) : Text × Text := (t.takeWhile isWordChar, t.dropWhile isWordChar)

/-- What follows the gap at the front. -/
def skipGap (t : Text) : Text := t.dropWhile isGap

/-- What follows a given character. -/
def expect? (c : Char) : Text → Option Text
  | [] => none
  | d :: rest => if d = c then some rest else none

/-- What follows `start` in a text that begins with it. -/
def after? : (start : Text) → Text → Option Text
  | [], t => some t
  | _ :: _, [] => none
  | c :: cs, d :: ds => if c = d then after? cs ds else none

theorem after?_append (start rest : Text) : after? start (start ++ rest) = some rest := by
  induction start with
  | nil => rfl
  | cons c cs ih => simp [after?, ih]

theorem eq_append_of_after? {start t rest : Text} (h : after? start t = some rest) :
    t = start ++ rest := by
  induction start generalizing t with
  | nil => simpa [after?] using h
  | cons c cs ih =>
      cases t with
      | nil => simp [after?] at h
      | cons d ds =>
          simp only [after?] at h
          split at h
          · next heq => rw [heq, ih h, List.cons_append]
          · simp at h

end Text

end GridRobot
