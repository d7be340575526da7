import GridRobot.Proofs.Script.Line
import GridRobot.Proofs.Text.Offset

/-!
# Blocks are longest runs

The length of a block is counted in one pass that does not know the margin until it meets the first line that
has one. As soon as the margin is set the count goes on to the first line that stands left of it
(`countBlock_some`), and before that it takes in whatever it meets, so it comes to the length of the block that
is taken off the front of the list (`countBlock_none`). What a block is can be said without counting
(`Text.IsBlockLength`): no line in it stands left of its first line that is not blank, and the line behind it
does. Only one number of lines is of that kind, since the line behind a shorter block would stand inside a
longer one (`Text.IsBlockLength.not_lt`).

A run takes blocks off the front of lines that are read and numbered already. They are the blocks that are cut out
of other blocks by an index, numbers included (`Block.read_nested`).
-/

namespace GridRobot

/-! ### Items with margins -/

/-- The line that sets the margin of a block belongs to the block. -/
theorem findSome?_takeBlock {α : Type} (margin? : α → Option Nat) (items : List α) :
    (takeBlock margin? items).findSome? margin? = items.findSome? margin? := by
  unfold takeBlock
  split
  · rfl
  · next base hbase =>
      obtain ⟨lead, first, rest, rfl, hfirst, hlead⟩ := List.findSome?_eq_some_iff.1 hbase
      have hkept : ∀ a ∈ lead ++ [first], (margin? a).all (base ≤ ·) = true := by
        intro a ha
        rcases List.mem_append.1 ha with ha | ha
        · rw [hlead a ha]
          rfl
        · rw [List.mem_singleton.1 ha, hfirst]
          exact decide_eq_true (Nat.le_refl base)
      rw [hbase, List.append_cons, List.takeWhile_append_of_pos hkept, ← List.append_cons]
      exact List.findSome?_eq_some_iff.2 ⟨lead, first, _, rfl, hfirst, hlead⟩

section

variable {α : Type} {margin? : α → Option Nat} {items : List α}

theorem takeBlock_of_findSome? {base : Nat} (h : items.findSome? margin? = some base) :
    takeBlock margin? items = items.takeWhile fun a => (margin? a).all (base ≤ ·) := by
  rw [takeBlock, h]

theorem takeBlock_of_findSome?_eq_none (h : items.findSome? margin? = none) : takeBlock margin? items = items := by
  rw [takeBlock, h]

theorem takeBlock_cons_of_eq_none {a : α} (ha : margin? a = none) (items : List α) :
    takeBlock margin? (a :: items) = a :: takeBlock margin? items := by
  rw [takeBlock, takeBlock, List.findSome?_cons, ha]
  cases items.findSome? margin? with
  | none => rfl
  | some base => exact List.takeWhile_cons_of_pos (by rw [ha]; rfl)

/-- No item of a block stands left of the item that sets its margin. -/
theorem margin_of_mem_takeBlock {a : α} {margin : Nat} (ha : a ∈ takeBlock margin? items)
    (hmargin : margin? a = some margin) : ∃ base, items.findSome? margin? = some base ∧ base ≤ margin := by
  cases hbase : items.findSome? margin? with
  | none =>
      rw [takeBlock_of_findSome?_eq_none hbase] at ha
      rw [List.findSome?_eq_none_iff.1 hbase a ha] at hmargin
      cases hmargin
  | some base =>
      rw [takeBlock_of_findSome? hbase] at ha
      have hle : (margin? a).all (base ≤ ·) = true := List.all_eq_true.1 List.all_takeWhile a ha
      rw [hmargin] at hle
      exact ⟨base, rfl, of_decide_eq_true hle⟩

/-- An item right behind a block has a margin and stands left of the item that sets the block's. -/
theorem margin_behind_takeBlock {a : α} (ha : items[(takeBlock margin? items).length]? = some a) :
    ∃ base margin, items.findSome? margin? = some base ∧ margin? a = some margin ∧ margin < base := by
  cases hbase : items.findSome? margin? with
  | none =>
      rw [takeBlock_of_findSome?_eq_none hbase, List.getElem?_eq_none (Nat.le_refl _)] at ha
      cases ha
  | some base =>
      have hrest : items.drop (takeBlock margin? items).length =
          items.dropWhile fun a => (margin? a).all (base ≤ ·) := by
        have happend := takeBlock_append_drop margin? items
        rw [takeBlock_of_findSome? hbase] at happend ⊢
        exact List.append_cancel_left (happend.trans List.takeWhile_append_dropWhile.symm)
      have hleft : (margin? a).all (base ≤ ·) = false := by
        have hends := List.head?_dropWhile_not (fun a => (margin? a).all (base ≤ ·)) items
        rwa [← hrest, List.head?_drop, ha] at hends
      cases hmargin : margin? a with
      | none =>
          rw [hmargin] at hleft
          cases hleft
      | some margin =>
          rw [hmargin] at hleft
          exact ⟨base, margin, rfl, rfl, Nat.not_le.1 (of_decide_eq_false hleft)⟩

theorem takeBlock_takeBlock : takeBlock margin? (takeBlock margin? items) = takeBlock margin? items := by
  cases hbase : items.findSome? margin? with
  | none => rw [takeBlock_of_findSome?_eq_none hbase, takeBlock_of_findSome?_eq_none hbase]
  | some base =>
      have hagain : (takeBlock margin? items).findSome? margin? = some base := by
        rw [findSome?_takeBlock, hbase]
      have hkept : ∀ a ∈ takeBlock margin? items, (margin? a).all (base ≤ ·) = true := by
        rw [takeBlock_of_findSome? hbase]
        exact List.all_eq_true.1 List.all_takeWhile
      have hall := @List.takeWhile_append_of_pos _ _ _ [] hkept
      rw [List.takeWhile_nil, List.append_nil] at hall
      rw [takeBlock_of_findSome? hagain, hall]

end

/-! ### Counting -/

section

variable {α : Type} (margin? : α → Option Nat) (items : List α)

/-- Once the margin is set, the items are counted up to the first that stands left of it. -/
theorem countBlock_some (base : Nat) :
    countBlock margin? (some base) items = (items.takeWhile fun a => (margin? a).all (base ≤ ·)).length := by
  induction items with
  | nil => rfl
  | cons a items ih =>
      rw [countBlock]
      cases ha : margin? a with
      | none => rw [List.takeWhile_cons_of_pos (by rw [ha]; rfl), List.length_cons, ← ih]
      | some margin =>
          simp only [Option.getD_some]
          split
          · next hless => rw [List.takeWhile_cons_of_neg (by simpa [ha] using hless), List.length_nil]
          · next hle => rw [List.takeWhile_cons_of_pos (by simpa [ha] using hle), List.length_cons, ih]

/-- As long as no margin is set all items are counted, and the first that has one sets it. -/
theorem countBlock_none : countBlock margin? none items = (takeBlock margin? items).length := by
  induction items with
  | nil => rfl
  | cons a items ih =>
      rw [countBlock]
      cases ha : margin? a with
      | none => rw [takeBlock_cons_of_eq_none ha, List.length_cons, ← ih]
      | some margin =>
          have hfirst : (a :: items).findSome? margin? = some margin := by
            rw [List.findSome?_cons, ha]
          have hkept : (margin? a).all (margin ≤ ·) = true := by
            rw [ha]
            exact decide_eq_true (Nat.le_refl margin)
          simp only [Option.getD_none, Nat.lt_irrefl, if_false]
          rw [countBlock_some, takeBlock_of_findSome? hfirst, List.takeWhile_cons, if_pos hkept, List.length_cons]

theorem take_countBlock : items.take (countBlock margin? none items) = takeBlock margin? items := by
  have hitems := congrArg (List.take (takeBlock margin? items).length) (takeBlock_append_drop margin? items)
  rw [List.take_left] at hitems
  rw [countBlock_none, ← hitems]

end

/-! ### Lines -/

namespace Text

theorem margin?_eq_some_iff {line : Text} {margin : Nat} :
    line.margin? = some margin ↔ line.isEmptyLine = false ∧ line.indentation = margin := by
  rw [margin?]
  cases line.isEmptyLine <;> simp

/-- The indentation of the first line from an index on that is not blank. -/
def marginFrom? (lines : List Text) (start : Nat) : Option Nat :=
  ((lines.drop start).find? (! ·.isEmptyLine)).map indentation

theorem marginFrom?_eq (lines : List Text) (start : Nat) :
    marginFrom? lines start = (lines.drop start).findSome? margin? := by
  rw [marginFrom?]
  induction lines.drop start with
  | nil => rfl
  | cons line rest ih =>
      rw [List.find?_cons, List.findSome?_cons, ← ih, margin?]
      cases line.isEmptyLine <;> rfl

/-- A number of lines that make up the block at an index: none of them stands left of the first that is not
blank, and a line that comes next does. -/
structure IsBlockLength (lines : List Text) (start n : Nat) : Prop where
  fits : min start lines.length + n ≤ lines.length
  inside : ∀ line ∈ (lines.drop start).take n, line.isEmptyLine = false →
    ∃ base, marginFrom? lines start = some base ∧ base ≤ line.indentation
  ends : ∀ line, lines[min start lines.length + n]? = some line →
    line.isEmptyLine = false ∧ ∃ base, marginFrom? lines start = some base ∧ line.indentation < base

theorem drop_min (lines : List Text) (start : Nat) : lines.drop (min start lines.length) = lines.drop start :=
  List.drop_eq_drop_iff.2 (by omega)

theorem getElem?_min_add (lines : List Text) (start n : Nat) :
    lines[min start lines.length + n]? = (lines.drop start)[n]? := by
  rw [← drop_min, List.getElem?_drop]

theorem IsBlockLength.not_lt {lines : List Text} {start n n' : Nat} (h : IsBlockLength lines start n)
    (h' : IsBlockLength lines start n') : ¬ n < n' := by
  intro hlt
  have hfits := h'.fits
  have hnext : min start lines.length + n < lines.length := by omega
  obtain ⟨hempty, base, hbase, hless⟩ := h.ends _ (List.getElem?_eq_getElem hnext)
  have hmem : lines[min start lines.length + n] ∈ (lines.drop start).take n' := by
    have hat := List.getElem?_eq_getElem hnext
    rw [getElem?_min_add, ← List.getElem?_take_of_lt hlt] at hat
    exact List.mem_of_getElem? hat
  obtain ⟨base', hbase', hle⟩ := h'.inside _ hmem hempty
  rw [hbase, Option.some.injEq] at hbase'
  omega

theorem blockLength_eq (lines : List Text) (start : Nat) :
    blockLength lines start = (block (lines.drop start)).length := countBlock_none margin? _

theorem isBlockLength_blockLength (lines : List Text) (start : Nat) :
    IsBlockLength lines start (blockLength lines start) := by
  constructor
  · have hle := length_takeBlock_le margin? (lines.drop start)
    rw [List.length_drop] at hle
    rw [blockLength_eq, block]
    omega
  · intro line hline hempty
    rw [blockLength, take_countBlock] at hline
    rw [marginFrom?_eq]
    exact margin_of_mem_takeBlock hline (margin?_eq_some_iff.2 ⟨hempty, rfl⟩)
  · intro line hline
    rw [getElem?_min_add, blockLength_eq] at hline
    obtain ⟨base, margin, hbase, hmargin, hless⟩ := margin_behind_takeBlock hline
    obtain ⟨hempty, rfl⟩ := margin?_eq_some_iff.1 hmargin
    rw [marginFrom?_eq]
    exact ⟨hempty, base, hbase, hless⟩

theorem isBlockLength_iff {lines : List Text} {start n : Nat} :
    IsBlockLength lines start n ↔ n = blockLength lines start := by
  have hlength := isBlockLength_blockLength lines start
  constructor
  · intro hn
    exact Nat.le_antisymm (Nat.not_lt.1 (hlength.not_lt hn)) (Nat.not_lt.1 (hn.not_lt hlength))
  · rintro rfl
    exact hlength

/-- What is cut out at an index is the block at the front of the lines from there on. -/
theorem blockAt_eq (lines : List Text) (start : Nat) : blockAt lines start = block (lines.drop start) := by
  rw [blockAt, List.extract_eq_take_drop, Nat.add_sub_cancel_left, blockLength, drop_min, take_countBlock, block]

theorem blockAt_of_blank {lines : List Text} {start : Nat}
    (h : ∀ line ∈ lines.drop start, line.isEmptyLine = true) : blockAt lines start = lines.drop start := by
  have hnone : (lines.drop start).findSome? margin? = none := by
    refine List.findSome?_eq_none_iff.2 fun line hline => ?_
    rw [margin?, h line hline, if_pos rfl]
  rw [blockAt_eq, block, takeBlock_of_findSome?_eq_none hnone]

theorem blockFrom_of_fromOffset? {t rest : Text} {offset : Nat} (h : fromOffset? offset t = some rest) :
    blockFrom t offset = blockAt rest.lines 0 := by
  rw [blockFrom, h, blockAt_eq]
  rfl

theorem blockFrom_of_fromOffset?_eq_none {t : Text} {offset : Nat} (h : fromOffset? offset t = none) :
    blockFrom t offset = blockAt (Text.lines []) 0 := by
  rw [blockFrom, h, blockAt_eq]
  rfl

end Text

theorem Block.drop_read (b : Block) (index : Nat) :
    b.read.drop index = Block.read ⟨b.lineNumber index, b.lines.drop index⟩ := by
  apply List.ext_getElem?
  intro i
  simp only [Block.read, Block.lineNumber, List.getElem?_drop, List.getElem?_mapIdx, Nat.add_assoc]

/-- The lines of a block inside another one are those that a run takes off the front of what is left of the outer
block, under the same numbers. -/
theorem Block.read_nested (b : Block) (index : Nat) :
    (b.nested index).read = Line.block (b.read.drop index) := by
  rw [drop_read, Line.block_read, nested, Text.blockAt_eq]

namespace Text

/-- The block at an index has the one length that `IsBlockLength` allows for, and the lines of the block are
those that are counted. It is the block that runs go by. Where there are only blank lines it has them all, and
cutting out a block once more leaves it as it is. The block at an offset of a text is that of the lines of the
text behind the offset, and of an empty text if the offset lies inside a character or past the end. -/
theorem block_is_longest_run (lines : List Text) (start : Nat) :
    (∀ n, IsBlockLength lines start n ↔ n = blockLength lines start) ∧
    blockAt lines start = (lines.drop start).take (blockLength lines start) ∧
    blockAt lines start = block (lines.drop start) ∧
    ((∀ line ∈ lines.drop start, line.isEmptyLine = true) → blockAt lines start = lines.drop start) ∧
    blockAt (blockAt lines start) 0 = blockAt lines start ∧
    ∀ text offset,
      (∀ before rest, text = before ++ rest → before.byteLength = offset →
        blockFrom text offset = blockAt rest.lines 0) ∧
      ((∀ before rest, text = before ++ rest → before.byteLength ≠ offset) →
        blockFrom text offset = blockAt (Text.lines []) 0) := by
  refine ⟨fun n => isBlockLength_iff, ?_, blockAt_eq lines start, blockAt_of_blank, ?_, fun text offset => ⟨?_, ?_⟩⟩
  · rw [blockAt_eq, blockLength, take_countBlock, block]
  · rw [blockAt_eq lines, blockAt_eq, List.drop_zero, block, block, takeBlock_takeBlock]
  · intro before rest htext hlength
    exact blockFrom_of_fromOffset? (fromOffset?_eq_some_iff.2 ⟨before, htext, hlength⟩)
  · intro hinvalid
    apply blockFrom_of_fromOffset?_eq_none
    refine Option.eq_none_iff_forall_ne_some.2 fun rest hrest => ?_
    obtain ⟨before, htext, hlength⟩ := fromOffset?_eq_some_iff.1 hrest
    exact hinvalid before rest htext hlength

/-- Blank lines above the line that sets the margin and between two others, and offsets before and inside a
letter of two bytes. -/
theorem block_is_longest_run_gaps :
    let lines := ["", "  ", "    move()", "", "     move()", "  turn_left()"].map String.toList
    IsBlockLength lines 0 5 ∧ ¬ IsBlockLength lines 0 6 ∧ blockAt (blockAt lines 0) 0 = blockAt lines 0 ∧
      blockFrom "aé\n b".toList 1 = blockAt (Text.lines "é\n b".toList) 0 ∧
      blockFrom "aé\n b".toList 2 = blockAt (Text.lines []) 0 := by
  intro lines
  obtain ⟨hlength, -, -, -, hagain, hfrom⟩ := block_is_longest_run lines 0
  have hfive : blockLength lines 0 = 5 := by decide
  have hinside : fromOffset? 2 "aé\n b".toList = none := by decide
  refine ⟨(hlength 5).2 hfive.symm, ?_, hagain, ?_, ?_⟩
  · rw [hlength, hfive]
    decide
  · exact (hfrom _ 1).1 ['a'] _ rfl rfl
  · refine (hfrom _ 2).2 fun before rest htext hoffset => ?_
    rw [fromOffset?_eq_some_iff.2 ⟨before, htext, hoffset⟩] at hinside
    cases hinside

end Text

end GridRobot
