import GridRobot.Text.Blank

/-!
# Lines and byte offsets

A text is cut into lines at line feeds; a text with no line feed is one line. Positions handed in from
outside count the bytes of the UTF-8 form, so the line feeds before an offset and the text from an offset
are defined through the size of each character. The line that holds an offset is looked up in an index of
the places where lines start: they ascend, so the last one at the offset or before it is found by halving.

Programs and checks count lines without a bound. The numbers that a text gives out for its lines and for offsets
are words of 32 bits, so the last line of a text with `UInt32.size - 1` line feeds has no number of its own there.
-/

namespace GridRobot

namespace Text

/-- The text up to the first `mark`, and the pieces between the later ones. -/
def cut (mark : Char) : Text → Text × List Text
  | [] => ([], [])
  | c :: cs =>
      let (piece, pieces) := cut mark cs
      if c = mark then ([], piece :: pieces) else (c :: piece, pieces)

/-- The pieces of a text between the places where `mark` stands; there is always at least one. -/
def pieces (mark : Char) (t : Text) : List Text := (cut mark t).1 :: (cut mark t).2

def lines (t : Text) : List Text := pieces '\n' t

/-- A line without the carriage returns at its end. -/
def dropReturns (t : Text) : Text := (t.reverse.dropWhile (· == '\r')).reverse

/-- The lines with their numbers from one on, carriage returns at their ends dropped. -/
def numberedLines (t : Text) : List (Nat × Text) :=
  (lines t).mapIdx fun i line => (i + 1, dropReturns line)

/-- The lines as they are given out, with words for their numbers. -/
def listing (t : Text) : List (UInt32 × Text) :=
  (lines t).mapIdx fun i line => (i.toUInt32 + 1, dropReturns line)

/-- The number of bytes of the UTF-8 form. -/
def byteLength (t : Text) : Nat := (String.ofList t).utf8ByteSize

/-- The number of line feeds. -/
def breaks (t : Text) : Nat := t.count '\n'

/-- The number of line feeds that start before a byte offset. -/
def breaksBefore : (offset : Nat) → Text → Nat
  | 0, _ => 0
  | _ + 1, [] => 0
  | n + 1, c :: cs => (if c = '\n' then 1 else 0) + breaksBefore (n + 1 - c.utf8Size) cs

/-- The text from a byte offset on, if a character or the end stands there. -/
def fromOffset? : (offset : Nat) → Text → Option Text
  | 0, t => some t
  | _ + 1, [] => none
  | n + 1, c :: cs => if c.utf8Size ≤ n + 1 then fromOffset? (n + 1 - c.utf8Size) cs else none

/-- The offsets right behind the line feeds of a text that starts at an offset. -/
def startsBehind (offset : Nat) : Text → List Nat
  | [] => []
  | c :: cs =>
      let next := offset + c.utf8Size
      if c = '\n' then next :: startsBehind next cs else startsBehind next cs

theorem lt_of_mem_startsBehind {t : Text} {offset start : Nat} (h : start ∈ startsBehind offset t) :
    offset < start := by
  induction t generalizing offset with
  | nil => cases h
  | cons c cs ih =>
      have hpos := c.utf8Size_pos
      simp only [startsBehind] at h
      split at h
      · rcases List.mem_cons.1 h with rfl | h
        · omega
        · have hlt := ih h
          omega
      · have hlt := ih h
        omega

theorem pairwise_startsBehind (offset : Nat) (t : Text) : (startsBehind offset t).Pairwise (· < ·) := by
  induction t generalizing offset with
  | nil => exact .nil
  | cons c cs ih =>
      simp only [startsBehind]
      split
      · exact .cons (fun _ => lt_of_mem_startsBehind) (ih _)
      · exact ih _

end Text

/-- What the search for a number in an ascending array comes to. -/
inductive Slot where
  /-- The number stands at the index. -/
  | found (index : Nat)
  /-- The number is missing; the index is where it would have to be put. -/
  | vacant (index : Nat)
  deriving DecidableEq, Repr

/-- Searches an ascending array from the index `low` to below the index `high`, half of it at a time. -/
def Slot.search (numbers : Array Nat) (x low high : Nat) (hsize : high ≤ numbers.size) : Slot :=
  if _hlow : low < high then
    let middle := (low + high) / 2
    have _hmiddle : middle < numbers.size := by omega
    if numbers[middle] = x then .found middle
    else if numbers[middle] < x then search numbers x (middle + 1) high hsize
    else search numbers x low middle (by omega)
  else .vacant low
termination_by high - low

/-- The places where the lines of a text start. -/
structure LineIndex where
  /-- The byte offset at which each line starts. -/
  starts : Array Nat
  ascending : starts.toList.Pairwise (· < ·)
  first : starts.toList.head? = some 0

namespace LineIndex

/-- The index of a text: its first line starts at zero, every other one right behind a line feed. -/
def ofText (t : Text) : LineIndex where
  starts := (0 :: Text.startsBehind 0 t).toArray
  ascending := .cons (fun _ => Text.lt_of_mem_startsBehind) (Text.pairwise_startsBehind 0 t)
  first := rfl

/-- The index of the last line that starts at an offset or before it. -/
def position (index : LineIndex) (offset : Nat) : Nat :=
  match Slot.search index.starts offset 0 index.starts.size (Nat.le_refl _) with
  | .found i => i
  | .vacant i => i - 1

/-- The number of the line that holds an offset, as a program counts it. -/
def lineNumber (index : LineIndex) (offset : Nat) : Nat := index.position offset + 1

/-- The number of the line that holds an offset, as a word. -/
def lineAt (index : LineIndex) (offset : Nat) : UInt32 := (index.position offset).toUInt32 + 1

end LineIndex

/-- The number of the line that holds a byte offset; the last line holds all that lie past the end. -/
def Text.lineOfOffset (t : Text) (offset : Nat) : UInt32 := (LineIndex.ofText t).lineAt offset

end GridRobot
