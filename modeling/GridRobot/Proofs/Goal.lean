import GridRobot.Goal
import GridRobot.Proofs.World.Layout

/-!
# Differences from a goal

A world agrees with its goal if the robot stands and faces as it should and every cell there is holds as
many beepers as it should. The comparison looks only at cells that hold beepers in one of the two worlds,
and that is enough: the cells that it reports are exactly those of the whole plane whose counts differ, each
once and in ascending order (`World.mismatches_eq`). An ascending list is determined by its members, so
the differences do not depend on which of two worlds is the goal, but for the roles of the two counts.
-/

namespace GridRobot

/-! ### Cells in order -/

namespace Position

theorem mem_insert {p q : Position} {cells : List Position} :
    q ∈ Position.insert p cells ↔ q = p ∨ q ∈ cells := by
  induction cells with
  | nil => simp [Position.insert]
  | cons r cells ih =>
      unfold Position.insert
      split
      · exact List.mem_cons
      · split
        · next heq => simp [heq]
        · rw [List.mem_cons, ih, List.mem_cons, or_left_comm]

theorem ascending_insert {cells : List Position} (hcells : cells.Pairwise (· < ·)) (p : Position) :
    (Position.insert p cells).Pairwise (· < ·) := by
  induction cells with
  | nil => exact List.pairwise_singleton _ p
  | cons q cells ih =>
      obtain ⟨hq, hrest⟩ := List.pairwise_cons.1 hcells
      unfold Position.insert
      split
      · next hlt =>
          refine List.pairwise_cons.2 ⟨fun r hr => ?_, hcells⟩
          rcases List.mem_cons.1 hr with rfl | hr
          · exact hlt
          · exact lt_trans hlt (hq r hr)
      · next hnlt =>
          split
          · exact hcells
          · next hne =>
              refine List.pairwise_cons.2 ⟨fun r hr => ?_, ih hrest⟩
              rcases mem_insert.1 hr with rfl | hr
              · exact lt_of_not_lt hnlt (Ne.symm hne)
              · exact hq r hr

/-- An ascending list is determined by its members. -/
theorem eq_of_ascending {cells cells' : List Position} (hcells : cells.Pairwise (· < ·))
    (hcells' : cells'.Pairwise (· < ·)) (h : ∀ p, p ∈ cells ↔ p ∈ cells') : cells = cells' := by
  have hperm : cells.Perm cells' := (List.perm_ext_iff_of_nodup (hcells.imp ne_of_lt) (hcells'.imp ne_of_lt)).2 h
  refine hperm.eq_of_pairwise ?_ hcells hcells'
  intro p q _ _ hlt hgt
  exact absurd (lt_trans hlt hgt) (lt_irrefl p)

end Position

namespace World

/-! ### Cells that differ -/

theorem mem_beeperCells {w goal : World} {cell : Position} :
    cell ∈ beeperCells w goal ↔ w.beepersAt cell ≠ 0 ∨ goal.beepersAt cell ≠ 0 := by
  have hfold : ∀ cells : List Position, cell ∈ cells.foldr Position.insert goal.beepers.cells ↔
      cell ∈ cells ∨ cell ∈ goal.beepers.cells := by
    intro cells
    induction cells with
    | nil => simp
    | cons p cells ih => rw [List.foldr_cons, Position.mem_insert, ih, List.mem_cons, or_assoc]
  rw [beeperCells, hfold, Layout.mem_cells_iff, Layout.mem_cells_iff]
  rfl

theorem ascending_beeperCells (w goal : World) : (beeperCells w goal).Pairwise (· < ·) := by
  unfold beeperCells
  induction w.beepers.cells with
  | nil => exact List.pairwise_map.2 goal.beepers.ascending
  | cons p cells ih => exact Position.ascending_insert ih p

/-- The cells whose counts differ, ascending. -/
def differingCells (w goal : World) : List Position :=
  (beeperCells w goal).filter fun cell => w.beepersAt cell ≠ goal.beepersAt cell

theorem ascending_differingCells (w goal : World) : (differingCells w goal).Pairwise (· < ·) :=
  (ascending_beeperCells w goal).filter _

theorem mem_differingCells {w goal : World} {cell : Position} :
    cell ∈ differingCells w goal ↔ w.beepersAt cell ≠ goal.beepersAt cell := by
  rw [differingCells, List.mem_filter, mem_beeperCells, decide_eq_true_eq, and_iff_right_iff_imp]
  intro hne
  by_cases hzero : w.beepersAt cell = 0
  · exact .inr fun hzero' => hne (hzero.trans hzero'.symm)
  · exact .inl hzero

theorem differingCells_comm (w goal : World) : differingCells goal w = differingCells w goal := by
  apply Position.eq_of_ascending (ascending_differingCells goal w) (ascending_differingCells w goal)
  intro cell
  rw [mem_differingCells, mem_differingCells, ne_comm]

/-! ### Differences -/

/-- Whether a world is as its goal says. Walls, bags and the sides of the grid do not count. -/
def Agrees (w goal : World) : Prop :=
  w.agent = goal.agent ∧ ∀ cell, w.beepersAt cell = goal.beepersAt cell

theorem mismatches_eq (w goal : World) : mismatches w goal = poseMismatch w goal ++
    (differingCells w goal).map fun cell => .beepers cell (goal.beepersAt cell) (w.beepersAt cell) := by
  rw [mismatches, differingCells]
  congr 1
  induction beeperCells w goal with
  | nil => rfl
  | cons cell cells ih =>
      by_cases hcell : w.beepersAt cell = goal.beepersAt cell
      · have hnone : beeperMismatch? w goal cell = none := if_pos hcell.symm
        rw [List.filterMap_cons_none hnone, List.filter_cons_of_neg (by simpa using hcell), ih]
      · have hsome : beeperMismatch? w goal cell = some _ := if_neg (Ne.symm hcell)
        rw [List.filterMap_cons_some hsome, List.filter_cons_of_pos (by simpa using hcell), List.map_cons, ih]

theorem poseMismatch_eq_nil_iff {w goal : World} : poseMismatch w goal = [] ↔ w.agent = goal.agent := by
  unfold poseMismatch
  split
  · next h => simp [h]
  · next h => simp [h]

theorem mismatches_eq_nil_iff {w goal : World} : mismatches w goal = [] ↔ w.Agrees goal := by
  rw [mismatches_eq, List.append_eq_nil_iff, poseMismatch_eq_nil_iff, List.map_eq_nil_iff,
    List.eq_nil_iff_forall_not_mem]
  simp only [mem_differingCells, Decidable.not_not]
  rfl

theorem mismatches_congr (w : World) {goal goal' : World} (hagent : goal'.agent = goal.agent)
    (hbeepers : goal'.beepers = goal.beepers) : mismatches w goal' = mismatches w goal := by
  unfold mismatches poseMismatch beeperCells beeperMismatch? beepersAt
  rw [hagent, hbeepers]

theorem reaches_iff {w goal : World} : reaches w goal = true ↔ w.Agrees goal := by
  rw [reaches, List.isEmpty_iff, mismatches_eq_nil_iff]

theorem agrees_equivalence : Equivalence Agrees where
  refl _ := ⟨rfl, fun _ => rfl⟩
  symm h := ⟨h.1.symm, fun cell => (h.2 cell).symm⟩
  trans h h' := ⟨h.1.trans h'.1, fun cell => (h.2 cell).trans (h'.2 cell)⟩

end World

/-- A difference seen from the other side. -/
def Mismatch.swap : Mismatch → Mismatch
  | .pose expected actual => .pose actual expected
  | .beepers cell expected actual => .beepers cell actual expected

namespace World

theorem mismatches_comm (w goal : World) : mismatches goal w = (mismatches w goal).map Mismatch.swap := by
  rw [mismatches_eq, mismatches_eq, List.map_append, List.map_map, differingCells_comm]
  congr 1
  unfold poseMismatch
  by_cases hagent : w.agent = goal.agent
  · rw [if_pos hagent, if_pos hagent.symm]
    rfl
  · rw [if_neg hagent, if_neg (Ne.symm hagent)]
    rfl

/-- The comparison with a goal lists exactly the differences: the poses if they differ, and then each cell of the
plane on which the counts differ, once and in ascending order. So a world reaches its goal exactly if poses
and counts agree. This is an equivalence, it takes no notice of walls, bags and the sides of the grid, and
the differences seen from the goal are the same with both sides exchanged. -/
theorem mismatches_are_differences (w goal : World) :
    (∃ cells : List Position, cells.Pairwise (· < ·) ∧
      (∀ cell, cell ∈ cells ↔ w.beepersAt cell ≠ goal.beepersAt cell) ∧
      mismatches w goal = (if w.agent = goal.agent then [] else [.pose goal.agent w.agent]) ++
        cells.map fun cell => .beepers cell (goal.beepersAt cell) (w.beepersAt cell)) ∧
    (reaches w goal = true ↔ w.agent = goal.agent ∧ ∀ cell, w.beepersAt cell = goal.beepersAt cell) ∧
    Equivalence (fun w goal : World => reaches w goal = true) ∧
    (∀ (width height width' height' : UInt32) (walls walls' : List Wall) (bag bag' : Bag),
      mismatches { w with width, height, walls, bag }
        { goal with width := width', height := height', walls := walls', bag := bag' } = mismatches w goal) ∧
    mismatches goal w = (mismatches w goal).map Mismatch.swap := by
  refine ⟨⟨differingCells w goal, ascending_differingCells w goal, fun _ => mem_differingCells,
    mismatches_eq w goal⟩, reaches_iff, ?_, fun _ _ _ _ _ _ _ _ => rfl, mismatches_comm w goal⟩
  simp only [reaches_iff]
  exact agrees_equivalence

end World

end GridRobot
