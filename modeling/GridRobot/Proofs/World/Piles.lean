import GridRobot.Proofs.Json.World

/-!
# Piles as JSON and as lines

Beepers are declared pile by pile in two ways, as the items of a JSON list and as lines of a world file.
Either way a later pile of a cell replaces an earlier one, so a cell comes to hold what the last pile says
that is put on it (`Layout.count_foldl_set_last`). The two part over empty piles. A line with an empty pile
clears its cell, while an empty item is left out before anything is put anywhere. This shows where an empty
pile is the last of a cell that had beepers before, and nowhere else (`World.piles_agree_iff`).
-/

namespace GridRobot

/-! ### What the last pile says -/

namespace Pile

/-- The count of the last pile. -/
def lastCount (ps : List Pile) : UInt32 := (ps.getLast?.map (·.count)).getD 0

theorem lastCount_concat (ps : List Pile) (p : Pile) : lastCount (ps ++ [p]) = p.count := by
  rw [lastCount, List.getLast?_concat]
  rfl

theorem lastCount_ne_zero {ps : List Pile} (hne : ps ≠ []) (hps : ∀ p ∈ ps, p.count ≠ 0) :
    lastCount ps ≠ 0 := by
  rw [lastCount, List.getLast?_eq_some_getLast hne]
  exact hps _ (List.getLast_mem hne)

/-- Leaving out the empty piles does not change what the last one says, unless it is empty itself and
comes behind one that is not. -/
theorem lastCount_filter_eq_iff (ps : List Pile) :
    lastCount (ps.filter (·.count ≠ 0)) = lastCount ps ↔
      (∀ p ∈ ps.getLast?, 0 < p.count) ∨ ∀ p ∈ ps, p.count = 0 := by
  rcases List.eq_nil_or_concat ps with rfl | ⟨earlier, last, rfl⟩
  · simp
  · rw [List.concat_eq_append, lastCount_concat, List.filter_append, List.getLast?_concat]
    by_cases hlast : last.count = 0
    · rw [List.filter_cons_of_neg (by simp [hlast]), List.filter_nil, List.append_nil, hlast]
      by_cases hempty : earlier.filter (·.count ≠ 0) = []
      · have hall : ∀ p ∈ earlier ++ [last], p.count = 0 := by
          intro p hp
          rcases List.mem_append.1 hp with hp | hp
          · simpa using List.filter_eq_nil_iff.1 hempty p hp
          · rw [List.mem_singleton.1 hp, hlast]
        rw [hempty]
        exact ⟨fun _ => .inr hall, fun _ => rfl⟩
      · have hne : lastCount (earlier.filter (·.count ≠ 0)) ≠ 0 :=
          lastCount_ne_zero hempty fun p hp => of_decide_eq_true (List.mem_filter.1 hp).2
        refine ⟨fun h => absurd h hne, ?_⟩
        rintro (hpos | hall)
        · have hzero := hpos last rfl
          rw [hlast] at hzero
          exact absurd hzero (by decide)
        · refine absurd (List.filter_eq_nil_iff.2 fun p hp => ?_) hempty
          simpa using hall p (List.mem_append_left _ hp)
    · rw [List.filter_cons_of_pos (by simpa using hlast), List.filter_nil, lastCount_concat]
      refine ⟨fun _ => .inl fun p hp => ?_, fun _ => rfl⟩
      cases hp
      exact UInt32.pos_iff_ne_zero.2 hlast

end Pile

namespace Layout

/-- A cell holds what the last pile says that was put on it. -/
theorem count_foldl_set_last (ps : List Pile) (l : Layout) (cell : Position) :
    (ps.foldl (fun l p => l.set p.cell p.count) l).count cell =
      ((ps.filter (·.cell = cell)).getLast?.map (·.count)).getD (l.count cell) := by
  induction ps generalizing l with
  | nil => rfl
  | cons p ps ih =>
      rw [List.foldl_cons, ih, count_set]
      by_cases hcell : p.cell = cell
      · rw [if_pos hcell, List.filter_cons_of_pos (by simpa using hcell), List.getLast?_cons]
        cases (ps.filter (·.cell = cell)).getLast? <;> rfl
      · rw [if_neg hcell, List.filter_cons_of_neg (by simpa using hcell)]

theorem count_foldl_set_empty (ps : List Pile) (cell : Position) :
    (ps.foldl (fun l p => l.set p.cell p.count) empty).count cell =
      Pile.lastCount (ps.filter (·.cell = cell)) :=
  count_foldl_set_last ps empty cell

theorem count_ofPiles (ps : List Pile) (cell : Position) :
    (ofPiles ps).count cell = Pile.lastCount ((ps.filter (·.cell = cell)).filter (·.count ≠ 0)) := by
  rw [ofPiles, count_foldl_set_empty, List.filter_filter, List.filter_filter]
  congr 2
  funext p
  exact Bool.and_comm _ _

end Layout

/-! ### Lists of piles in files -/

/-- The lines that declare piles, one below the other. -/
def Pile.file (ps : List Pile) : String :=
  String.ofList (ps.flatMap fun p => (Declaration.beeper p).render ++ ['\n'])

namespace World

theorem parse_file (ps : List Pile) :
    parse (Pile.file ps) = { initial with beepers := ps.foldl (fun l p => l.set p.cell p.count) .empty } := by
  have hlines : Text.lines (Pile.file ps).toList = (ps.map Declaration.beeper).map Declaration.render ++ [[]] := by
    rw [← Text.lines_flatMap, Pile.file, String.toList_ofList, List.flatMap_map, List.flatMap_map]
    intro l hl
    obtain ⟨d, -, rfl⟩ := List.mem_map.1 hl
    exact d.newline_not_mem_render
  have hempty : [([] : Text)].filterMap Declaration.read? = [] := by decide
  have hall : (ps.map Declaration.beeper).filter (fun d => d.Effective) = ps.map Declaration.beeper := by
    rw [List.filter_eq_self]
    intro d hd
    obtain ⟨p, -, rfl⟩ := List.mem_map.1 hd
    rfl
  rw [parse, ofText, hlines, List.filterMap_append, hempty, List.append_nil, filterMap_read?_render, hall,
    ofDeclarations, foldl_declare_beepers]
  rfl

theorem ofJson_toJsonWith {w : World} (hw : w.HasCells) (ps : List Pile) :
    ofJson (w.toJsonWith ps).compact = .ok { w with beepers := .ofPiles ps } :=
  Json.decode_compact (reads_toJsonWith hw ps)

/-- Piles that are listed in the JSON form of a world and piles that are declared line by line make the same
layout exactly if on each cell the last pile has beepers or none has. -/
theorem piles_agree_iff (w : World) (hw : 1 ≤ w.width ∧ 1 ≤ w.height) (ps : List Pile) :
    ∃ v, ofJson (w.toJsonWith ps).compact = .ok v ∧
      (v.beepers = (parse (Pile.file ps)).beepers ↔
        ∀ cell, (∀ p ∈ (ps.filter (·.cell = cell)).getLast?, 0 < p.count) ∨
          ∀ p ∈ ps, p.cell = cell → p.count = 0) := by
  refine ⟨_, ofJson_toJsonWith hw ps, ?_⟩
  have hcells : Layout.ofPiles ps = (parse (Pile.file ps)).beepers ↔
      ∀ cell, (Layout.ofPiles ps).count cell = (parse (Pile.file ps)).beepers.count cell :=
    ⟨fun h cell => congrArg (·.count cell) h, Layout.ext_count⟩
  rw [hcells, parse_file]
  apply forall_congr'
  intro cell
  rw [Layout.count_ofPiles, Layout.count_foldl_set_empty, Pile.lastCount_filter_eq_iff]
  simp only [List.mem_filter, decide_eq_true_eq, and_imp]

theorem piles_agree_iff_cleared :
    let cleared : List Pile := [⟨⟨1, 1⟩, 2⟩, ⟨⟨2, 1⟩, 0⟩, ⟨⟨1, 1⟩, 0⟩]
    let filled : List Pile := [⟨⟨1, 1⟩, 0⟩, ⟨⟨2, 1⟩, 0⟩, ⟨⟨1, 1⟩, 2⟩]
    (1 ≤ initial.width ∧ 1 ≤ initial.height) ∧
      (∃ v, ofJson (initial.toJsonWith cleared).compact = .ok v ∧ v.beepers ≠ (parse (Pile.file cleared)).beepers) ∧
      ∃ v, ofJson (initial.toJsonWith filled).compact = .ok v ∧ v.beepers = (parse (Pile.file filled)).beepers := by
  intro cleared filled
  have hinitial : 1 ≤ initial.width ∧ 1 ≤ initial.height := by decide
  obtain ⟨v, hv, hcleared⟩ := piles_agree_iff initial hinitial cleared
  obtain ⟨v', hv', hfilled⟩ := piles_agree_iff initial hinitial filled
  refine ⟨hinitial, ⟨v, hv, fun h => ?_⟩, v', hv', hfilled.2 fun cell => ?_⟩
  · rcases hcleared.1 h ⟨1, 1⟩ with hlast | hall
    · exact absurd (hlast ⟨⟨1, 1⟩, 0⟩ rfl) (by decide)
    · exact absurd (hall ⟨⟨1, 1⟩, 2⟩ List.mem_cons_self rfl) (by decide)
  · by_cases hcell : cell = ⟨1, 1⟩
    · subst hcell
      exact .inl fun p hp => by cases hp; decide
    · refine .inr fun p hp hpc => ?_
      have hlisted : p = ⟨⟨1, 1⟩, 0⟩ ∨ p = ⟨⟨2, 1⟩, 0⟩ ∨ p = ⟨⟨1, 1⟩, 2⟩ := by simpa [filled] using hp
      rcases hlisted with rfl | rfl | rfl
      · rfl
      · rfl
      · exact absurd hpc.symm hcell

end World

end GridRobot
