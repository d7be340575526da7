import GridRobot.World.Layout

/-!
# Which cells a layout lists

A layout lists a cell exactly if the cell holds beepers (`Layout.mem_cells_iff`). The list is ascending, so
the count of a cell is that of the only pile it has there, and the total of a layout changes with the count
of a cell by as much as the count does (`Layout.total_set`).
-/

namespace GridRobot

namespace Pile

theorem countIn_of_not_mem {ps : List Pile} {cell : Position} (h : cell ∉ ps.map (·.cell)) :
    countIn ps cell = 0 := by
  have hnone : ps.find? (·.cell = cell) = none := by
    rw [List.find?_eq_none]
    intro p hp heq
    exact h (List.mem_map.2 ⟨p, hp, of_decide_eq_true heq⟩)
  rw [countIn, hnone]

theorem countIn_of_mem {ps : List Pile} (hps : Ascending ps) {p : Pile} (hp : p ∈ ps) :
    countIn ps p.cell = p.count := by
  induction ps with
  | nil => exact absurd hp List.not_mem_nil
  | cons q ps ih =>
      obtain ⟨hq, hps⟩ := List.pairwise_cons.1 hps
      rw [countIn_cons]
      rcases List.mem_cons.1 hp with rfl | hp
      · exact if_pos rfl
      · rw [if_neg (Position.ne_of_lt (hq p hp)), ih hps hp]

/-- The number of beepers in all piles. -/
def total (ps : List Pile) : Nat := ps.foldr (fun p n => p.count.toNat + n) 0

theorem total_cons (p : Pile) (ps : List Pile) : total (p :: ps) = p.count.toNat + total ps := rfl

theorem total_put {ps : List Pile} (hps : Ascending ps) (cell : Position) (count : UInt32) :
    total (put cell count ps) + (countIn ps cell).toNat = total ps + count.toNat := by
  induction ps with
  | nil => exact Nat.add_comm _ _
  | cons p ps ih =>
      obtain ⟨hp, hrest⟩ := List.pairwise_cons.1 hps
      rw [put]
      split
      · next hlt =>
          have hzero : countIn (p :: ps) cell = 0 := by
            apply countIn_eq_zero
            intro q hq
            rcases List.mem_cons.1 hq with rfl | hq
            · exact hlt
            · exact Position.lt_trans hlt (hp q hq)
          rw [hzero, total_cons, UInt32.toNat_zero, Nat.add_zero]
          exact Nat.add_comm _ _
      · split
        · next heq =>
            rw [countIn_cons, if_pos heq, total_cons, total_cons]
            dsimp only
            omega
        · next hne =>
            have hcells := ih hrest
            rw [countIn_cons, if_neg hne, total_cons, total_cons]
            omega

theorem total_drop {ps : List Pile} (hps : Ascending ps) (cell : Position) :
    total (drop cell ps) + (countIn ps cell).toNat = total ps := by
  induction ps with
  | nil => rfl
  | cons p ps ih =>
      obtain ⟨hp, hrest⟩ := List.pairwise_cons.1 hps
      have hcells := ih hrest
      unfold drop at hcells ⊢
      by_cases h : p.cell = cell
      · have hzero : countIn ps cell = 0 := countIn_eq_zero (h ▸ hp)
        rw [hzero, UInt32.toNat_zero] at hcells
        rw [List.filter_cons_of_neg (by simp [h]), countIn_cons, if_pos h, total_cons]
        omega
      · rw [List.filter_cons_of_pos (by simp [h]), countIn_cons, if_neg h, total_cons, total_cons]
        omega

end Pile

namespace Layout

theorem mem_cells_iff {l : Layout} {cell : Position} : cell ∈ l.cells ↔ l.count cell ≠ 0 := by
  constructor
  · intro hcell
    obtain ⟨p, hp, rfl⟩ := List.mem_map.1 hcell
    show Pile.countIn l.piles p.cell ≠ 0
    rw [Pile.countIn_of_mem l.ascending hp]
    exact l.positive p hp
  · intro hcount
    apply Decidable.byContradiction
    intro hcell
    exact hcount (Pile.countIn_of_not_mem hcell)

theorem total_set (l : Layout) (cell : Position) (count : UInt32) :
    (l.set cell count).total + (l.count cell).toNat = l.total + count.toNat := by
  unfold set
  split
  · next hzero =>
      rw [hzero]
      exact Pile.total_drop l.ascending cell
  · exact Pile.total_put l.ascending cell count

theorem count_le_total (l : Layout) (cell : Position) : (l.count cell).toNat ≤ l.total := by
  have hclear := l.total_set cell 0
  rw [UInt32.toNat_zero] at hclear
  omega

end Layout

end GridRobot
