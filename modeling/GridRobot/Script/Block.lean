import GridRobot.Text.Lines

/-!
# Blocks

Indentation alone says where a block ends. The first line that is not blank sets the margin, and the
block runs until a line that is not blank stands left of it. Blank lines belong to the block they
stand in and never set the margin. The rule is stated for anything that has a margin, since it serves
both for raw lines and for lines that are read already. `takeBlock` takes a block off the front of a list,
`countBlock` goes through a list once and counts what belongs to the block.
-/

namespace GridRobot

/-- The block at the front of a list. `margin?` is the indentation of an item, none for a blank one. -/
def takeBlock {α : Type} (margin? : α → Option Nat) (items : List α) : List α :=
  match items.findSome? margin? with
  | none => items
  | some base => items.takeWhile fun a => (margin? a).all (base ≤ ·)

theorem length_takeBlock_le {α : Type} (margin? : α → Option Nat) (items : List α) :
    (takeBlock margin? items).length ≤ items.length := by
  unfold takeBlock
  split
  · exact Nat.le_refl _
  · exact (List.takeWhile_sublist _).length_le

theorem take_length_takeWhile {α : Type} (p : α → Bool) (items : List α) :
    items.take (items.takeWhile p).length = items.takeWhile p := by
  induction items with
  | nil => rfl
  | cons a as ih =>
      rw [List.takeWhile_cons]
      split
      · simpa using ih
      · rfl

/-- A block and what follows it are the whole list. -/
theorem takeBlock_append_drop {α : Type} (margin? : α → Option Nat) (items : List α) :
    takeBlock margin? items ++ items.drop (takeBlock margin? items).length = items := by
  unfold takeBlock
  split
  · simp
  · next base _ =>
      rw [← take_length_takeWhile (fun a => (margin? a).all (base ≤ ·)) items, List.length_take,
        Nat.min_eq_left (List.takeWhile_sublist _).length_le, List.take_append_drop]

/-- The number of items of the block at the front of a list, `base` being the margin as far as it is set.
The first item that has a margin sets it. -/
def countBlock {α : Type} (margin? : α → Option Nat) (base : Option Nat) : List α → Nat
  | [] => 0
  | a :: items =>
      match margin? a with
      | none => countBlock margin? base items + 1
      | some margin =>
          if margin < base.getD margin then 0
          else countBlock margin? (some (base.getD margin)) items + 1

/-- The indentation of a line that is not blank. -/
def Text.margin? (line : Text) : Option Nat :=
  if line.isEmptyLine then none else some line.indentation

/-- The block at the front of a list of lines. -/
def Text.block (lines : List Text) : List Text := takeBlock Text.margin? lines

/-- The number of lines of the block that starts at an index. -/
def Text.blockLength (lines : List Text) (start : Nat) : Nat :=
  countBlock Text.margin? none (lines.drop start)

/-- The block that starts at an index; there is nothing in it if the index lies past the end. -/
def Text.blockAt (lines : List Text) (start : Nat) : List Text :=
  let start := min start lines.length
  lines.extract start (start + Text.blockLength lines start)

/-- The block that starts at a byte offset of a text. What is left of the line at the offset is its
first line; an offset where no character starts leaves an empty text. -/
def Text.blockFrom (t : Text) (offset : Nat) : List Text :=
  Text.block ((Text.fromOffset? offset t).getD []).lines

/-- Lines of a script with the number of the first one. -/
structure Block where
  firstLine : Nat
  lines : List Text
  deriving DecidableEq, Repr

namespace Block

/-- The number of the line at an index. -/
def lineNumber (b : Block) (index : Nat) : Nat := b.firstLine + index

/-- The block inside that starts at an index. -/
def nested (b : Block) (index : Nat) : Block :=
  ⟨b.lineNumber index, Text.blockAt b.lines index⟩

end Block

end GridRobot
