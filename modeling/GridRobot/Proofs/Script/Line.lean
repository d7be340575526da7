import GridRobot.Proofs.Text.Basic
import GridRobot.Script.Line

/-!
# Blank lines

A line that is blank has no margin and asks for nothing, so neither the end of a block nor anything that
is done in it depends on it. `Line.tidy` leaves the blank lines of a block away and gives new numbers to
the rest, and cutting out blocks goes along with that: the block at the front of tidied lines is the block
at the front of the lines, tidied (`Line.block_tidy`), and so is what follows it.
-/

namespace GridRobot

structure Line.Blank (l : Line) : Prop where
  margin? : l.margin? = none
  statement : l.statement = .skip

theorem Line.Blank.isCounted {l : Line} (h : l.Blank) : l.isCounted = false := by
  simp [Line.isCounted, h.statement]

instance (l : Line) : Decidable l.Blank :=
  decidable_of_iff (l.margin? = none ∧ l.statement = .skip) ⟨fun h => ⟨h.1, h.2⟩, fun h => ⟨h.1, h.2⟩⟩

theorem Text.margin?_concat {c : Char} (hc : Text.isBlank c = true) (t : Text) :
    Text.margin? (t ++ [c]) = t.margin? := by
  rw [Text.margin?, Text.margin?, Text.isEmptyLine_concat hc]
  split
  · rfl
  · next hempty =>
      have hshort : (t.takeWhile Text.isBlank).length ≠ t.length := by
        intro hlength
        have hall := (List.takeWhile_sublist Text.isBlank).eq_of_length hlength
        exact hempty (hall ▸ List.all_takeWhile)
      rw [Text.indentation, List.takeWhile_append, if_neg hshort, Text.indentation]

theorem Text.indentation_of_margin? {l : Text} {k : Nat} (h : l.margin? = some k) : l.indentation = k := by
  unfold margin? at h
  split at h
  · cases h
  · exact Option.some.inj h

/-- A line is read as if there were no blank at its end. -/
theorem Line.read_concat {c : Char} (hc : Text.isBlank c = true) (number : Nat) (t : Text) :
    Line.read number (t ++ [c]) = Line.read number t := by
  rw [Line.read, Line.read, Text.margin?_concat hc, Statement.read, Text.trim_concat hc, Statement.read]

theorem Line.blank_read (number : Nat) : (Line.read number []).Blank := ⟨rfl, rfl⟩

theorem Block.read_cons (number : Nat) (t : Text) (ts : List Text) :
    Block.read ⟨number, t :: ts⟩ = Line.read number t :: Block.read ⟨number + 1, ts⟩ := by
  simp only [Block.read, Block.lineNumber, List.mapIdx_cons, Nat.add_zero]
  congr 2
  funext i
  rw [Nat.add_right_comm, Nat.add_assoc]

theorem Block.read_append (number : Nat) (above below : List Text) :
    Block.read ⟨number, above ++ below⟩ =
      Block.read ⟨number, above⟩ ++ Block.read ⟨number + above.length, below⟩ := by
  induction above generalizing number with
  | nil => rfl
  | cons l above ih =>
      rw [List.cons_append, Block.read_cons, ih, Block.read_cons, List.length_cons, List.cons_append,
        Nat.add_right_comm, Nat.add_assoc]

theorem Block.read_insert (number : Nat) (above : List Text) (l : Text) (below : List Text) :
    Block.read ⟨number, above ++ l :: below⟩ = Block.read ⟨number, above⟩ ++
      Line.read (number + above.length) l :: Block.read ⟨number + above.length + 1, below⟩ := by
  rw [read_append, read_cons]

namespace Line

variable (number : Nat → Nat)

/-- The line under another number. -/
def renumber (l : Line) : Line := { l with number := number l.number }

@[simp] theorem margin?_renumber (l : Line) : (l.renumber number).margin? = l.margin? := rfl

@[simp] theorem statement_renumber (l : Line) : (l.renumber number).statement = l.statement := rfl

@[simp] theorem isCounted_renumber (l : Line) : (l.renumber number).isCounted = l.isCounted := rfl

/-- Lines without those that are blank, under other numbers. -/
def tidy (lines : List Line) : List Line := (lines.filter fun l => ¬ l.Blank).map (renumber number)

@[simp] theorem tidy_nil : tidy number [] = [] := rfl

theorem tidy_cons_of_blank {l : Line} (hl : l.Blank) (lines : List Line) :
    tidy number (l :: lines) = tidy number lines := by
  rw [tidy, List.filter_cons_of_neg (by simpa using hl), tidy]

theorem tidy_cons_of_not_blank {l : Line} (hl : ¬ l.Blank) (lines : List Line) :
    tidy number (l :: lines) = l.renumber number :: tidy number lines := by
  rw [tidy, List.filter_cons_of_pos (by simpa using hl), List.map_cons, tidy]

theorem tidy_cons_of_counted {l : Line} (hl : l.isCounted = true) (lines : List Line) :
    tidy number (l :: lines) = l.renumber number :: tidy number lines := by
  apply tidy_cons_of_not_blank
  intro hblank
  rw [hblank.isCounted] at hl
  cases hl

/-- Whether a line is blank has nothing to do with its number. -/
theorem tidy_read_cons (n : Nat) (t : Text) {lines lines' : List Line}
    (h : tidy number lines = tidy id lines') :
    tidy number (read n t :: lines) = tidy id (read (number n) t :: lines') := by
  by_cases hl : (read n t).Blank
  · have hl' : (read (number n) t).Blank := ⟨hl.margin?, hl.statement⟩
    rw [tidy_cons_of_blank number hl, tidy_cons_of_blank id hl', h]
  · have hl' : ¬ (read (number n) t).Blank := fun hl' => hl ⟨hl'.margin?, hl'.statement⟩
    rw [tidy_cons_of_not_blank number hl, tidy_cons_of_not_blank id hl', h]
    rfl

theorem tidy_append (above below : List Line) :
    tidy number (above ++ below) = tidy number above ++ tidy number below := by
  rw [tidy, List.filter_append, List.map_append, tidy, tidy]

theorem any_isCounted_tidy (lines : List Line) :
    (tidy number lines).any isCounted = lines.any isCounted := by
  induction lines with
  | nil => rfl
  | cons l lines ih =>
      by_cases hl : l.Blank
      · rw [tidy_cons_of_blank number hl, ih, List.any_cons, hl.isCounted, Bool.false_or]
      · rw [tidy_cons_of_not_blank number hl, List.any_cons, List.any_cons, ih, isCounted_renumber]

section Prefix

variable {p : Line → Bool} (hblank : ∀ l : Line, l.Blank → p l = true)
  (hnumber : ∀ l : Line, p (l.renumber number) = p l)

include hblank hnumber

theorem takeWhile_tidy (lines : List Line) :
    (tidy number lines).takeWhile p = tidy number (lines.takeWhile p) := by
  induction lines with
  | nil => rfl
  | cons l lines ih =>
      by_cases hl : l.Blank
      · rw [tidy_cons_of_blank number hl, ih, List.takeWhile_cons_of_pos (hblank l hl),
          tidy_cons_of_blank number hl]
      · rw [tidy_cons_of_not_blank number hl, List.takeWhile_cons, List.takeWhile_cons, hnumber]
        split
        · rw [ih, tidy_cons_of_not_blank number hl]
        · rfl

theorem dropWhile_tidy (lines : List Line) :
    (tidy number lines).dropWhile p = tidy number (lines.dropWhile p) := by
  induction lines with
  | nil => rfl
  | cons l lines ih =>
      by_cases hl : l.Blank
      · rw [tidy_cons_of_blank number hl, ih, List.dropWhile_cons_of_pos (hblank l hl)]
      · rw [tidy_cons_of_not_blank number hl, List.dropWhile_cons, List.dropWhile_cons, hnumber]
        split
        · exact ih
        · rw [tidy_cons_of_not_blank number hl]

end Prefix

theorem dropWhile_not_isCounted_tidy (lines : List Line) :
    (tidy number lines).dropWhile (!·.isCounted) = tidy number (lines.dropWhile (!·.isCounted)) :=
  dropWhile_tidy number (fun l hl => by simp [hl.isCounted]) (fun l => rfl) lines

/-- The first line that is counted stays the first one. -/
theorem dropWhile_tidy_of_eq_cons {lines rest : List Line} {l : Line}
    (h : lines.dropWhile (!·.isCounted) = l :: rest) :
    (tidy number lines).dropWhile (!·.isCounted) = l.renumber number :: tidy number rest := by
  have hl : l.isCounted = true := by
    have hhead := List.head?_dropWhile_not (fun l => !isCounted l) lines
    rw [h] at hhead
    simpa using hhead
  rw [dropWhile_not_isCounted_tidy, h, tidy_cons_of_counted number hl]

/-! ### Blocks -/

theorem findSome?_margin?_tidy (lines : List Line) :
    (tidy number lines).findSome? margin? = lines.findSome? margin? := by
  induction lines with
  | nil => rfl
  | cons l lines ih =>
      by_cases hl : l.Blank
      · rw [tidy_cons_of_blank number hl, ih, List.findSome?_cons, hl.margin?]
      · rw [tidy_cons_of_not_blank number hl, List.findSome?_cons, List.findSome?_cons, ih]
        rfl

theorem block_tidy (lines : List Line) : block (tidy number lines) = tidy number (block lines) := by
  rw [block, block, takeBlock, takeBlock, findSome?_margin?_tidy]
  cases lines.findSome? margin? with
  | none => rfl
  | some base =>
      apply takeWhile_tidy number
      · intro l hl
        rw [hl.margin?]
        rfl
      · exact fun l => rfl

theorem findSome?_margin?_read (n : Nat) (ts : List Text) :
    (Block.read ⟨n, ts⟩).findSome? margin? = ts.findSome? Text.margin? := by
  induction ts generalizing n with
  | nil => rfl
  | cons t ts ih =>
      rw [Block.read_cons, List.findSome?_cons, List.findSome?_cons, ih]
      rfl

theorem takeWhile_margin?_read (p : Option Nat → Bool) (n : Nat) (ts : List Text) :
    (Block.read ⟨n, ts⟩).takeWhile (fun l => p l.margin?) =
      Block.read ⟨n, ts.takeWhile fun t => p t.margin?⟩ := by
  induction ts generalizing n with
  | nil => rfl
  | cons t ts ih =>
      have hread : (read n t).margin? = t.margin? := rfl
      rw [Block.read_cons, List.takeWhile_cons, List.takeWhile_cons, hread]
      split
      · rw [Block.read_cons, ih]
      · rfl

/-- A block is the same whether it is cut out before its lines are read or afterwards. -/
theorem block_read (n : Nat) (ts : List Text) :
    block (Block.read ⟨n, ts⟩) = Block.read ⟨n, Text.block ts⟩ := by
  rw [block, Text.block, takeBlock, takeBlock, findSome?_margin?_read]
  cases ts.findSome? Text.margin? with
  | none => rfl
  | some base => exact takeWhile_margin?_read (fun margin? => margin?.all (base ≤ ·)) n ts

theorem block_append_afterBlock (lines : List Line) : block lines ++ afterBlock lines = lines :=
  takeBlock_append_drop _ _

theorem afterBlock_tidy (lines : List Line) :
    afterBlock (tidy number lines) = tidy number (afterBlock lines) := by
  have hlines := block_append_afterBlock (tidy number lines)
  have hsplit := tidy_append number (block lines) (afterBlock lines)
  rw [block_tidy] at hlines
  rw [block_append_afterBlock] at hsplit
  exact List.append_cancel_left (hlines.trans hsplit)

end Line

end GridRobot
