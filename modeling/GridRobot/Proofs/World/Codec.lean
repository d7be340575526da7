import GridRobot.CommandLine.Answer
import GridRobot.Proofs.World.Declaration
import GridRobot.Proofs.World.Layout

/-!
# Worlds read back

A world is written as the declarations that build it, and building it from them gives the same world: the
walls come in their order, and no two piles are of one cell, so none replaces another. The only
declaration that is lost on the way is that of a grid without cells (`World.ofText_toText`), and no text
describes such a grid (`World.hasCells_ofText`). Hence a world that a text describes is never changed by
writing and reading it again.
-/

namespace GridRobot

/-! ### Piles -/

namespace Layout

/-- Piles of different cells that are set one after the other all stand. -/
theorem count_foldl_set {ps : List Pile} (hps : Pile.Ascending ps) (l : Layout) (cell : Position) :
    (ps.foldl (fun l p => l.set p.cell p.count) l).count cell =
      if cell ∈ ps.map (·.cell) then Pile.countIn ps cell else l.count cell := by
  induction ps generalizing l with
  | nil => rfl
  | cons p ps ih =>
      obtain ⟨hp, hps⟩ := List.pairwise_cons.1 hps
      rw [List.foldl_cons, ih hps, count_set, Pile.countIn_cons, List.map_cons]
      by_cases hcell : p.cell = cell
      · have hlater : cell ∉ ps.map (·.cell) := by
          intro hmem
          obtain ⟨q, hq, hqcell⟩ := List.mem_map.1 hmem
          exact Position.ne_of_lt (hp q hq) (hcell.trans hqcell.symm)
        rw [if_neg hlater, if_pos hcell, if_pos hcell, if_pos (hcell ▸ List.mem_cons_self)]
      · have hmem : cell ∈ p.cell :: ps.map (·.cell) ↔ cell ∈ ps.map (·.cell) := by
          rw [List.mem_cons]
          exact or_iff_right (Ne.symm hcell)
        simp only [hcell, hmem, if_false]

theorem foldl_set_piles (l : Layout) :
    l.piles.foldl (fun l p => l.set p.cell p.count) empty = l := by
  apply ext_count
  intro cell
  rw [count_foldl_set l.ascending]
  split
  · rfl
  · next hcell => exact (Pile.countIn_of_not_mem hcell).symm

end Layout

/-! ### Worlds -/

namespace World

/-- The grid has a cell. -/
def HasCells (w : World) : Prop := 1 ≤ w.width ∧ 1 ≤ w.height

instance (w : World) : Decidable w.HasCells := inferInstanceAs (Decidable (1 ≤ w.width ∧ 1 ≤ w.height))

theorem foldl_declare_walls (w : World) (walls : List Wall) :
    (walls.map Declaration.wall).foldl declare w = { w with walls := w.walls ++ walls } := by
  induction walls generalizing w with
  | nil => simp
  | cons wall walls ih => simp [ih, declare, addWall]

theorem foldl_declare_beepers (w : World) (ps : List Pile) :
    (ps.map Declaration.beeper).foldl declare w =
      { w with beepers := ps.foldl (fun l p => l.set p.cell p.count) w.beepers } := by
  induction ps generalizing w with
  | nil => rfl
  | cons p ps ih => simp [ih, declare, setBeepers]

/-- All but the sides of the grid is built from what is declared behind them. -/
theorem foldl_declare_tail (w : World) (width height : UInt32) :
    w.declarations.tail.foldl declare (ofSize width height) = { w with width, height } := by
  rw [declarations, List.cons_append, List.cons_append, List.tail_cons, List.foldl_append,
    List.foldl_append, foldl_declare_walls, foldl_declare_beepers]
  simp [ofSize, declare, Layout.foldl_set_piles]

theorem filterMap_read?_render (ds : List Declaration) :
    (ds.map Declaration.render).filterMap Declaration.read? = ds.filter fun d => d.Effective := by
  rw [List.filterMap_map, ← List.filterMap_eq_filter]
  congr 1
  funext d
  simp [Declaration.read?_render, Option.guard]

theorem lines_toText (w : World) : w.toText.lines = w.declarations.map Declaration.render ++ [[]] := by
  rw [← Text.lines_flatMap, List.flatMap_map]
  · rfl
  · intro l hl
    obtain ⟨d, -, rfl⟩ := List.mem_map.1 hl
    exact d.newline_not_mem_render

theorem effective_tail (w : World) : ∀ d ∈ w.declarations.tail, d.Effective := by
  intro d hd
  rw [declarations, List.cons_append, List.cons_append, List.tail_cons, List.mem_append,
    List.mem_append] at hd
  rcases hd with (hd | hd) | hd
  · obtain ⟨wall, -, rfl⟩ := List.mem_map.1 hd
    trivial
  · obtain ⟨pile, -, rfl⟩ := List.mem_map.1 hd
    trivial
  · simp only [List.mem_cons, List.not_mem_nil, or_false] at hd
    rcases hd with rfl | rfl
    · trivial
    · trivial

/-- Reading what is written gives the world back, but for the sides of a grid without cells. -/
theorem ofText_toText (w : World) :
    ofText w.toText = if w.HasCells then w else { w with width := 1, height := 1 } := by
  have hempty : [([] : Text)].filterMap Declaration.read? = [] := by decide
  have htail : w.declarations.tail.filter (fun d => d.Effective) = w.declarations.tail := by
    rw [List.filter_eq_self]
    intro d hd
    exact decide_eq_true (w.effective_tail d hd)
  have hsplit : w.declarations = .dimension w.width w.height :: w.declarations.tail := rfl
  rw [ofText, lines_toText, List.filterMap_append, hempty, List.append_nil, filterMap_read?_render,
    hsplit, List.filter_cons, htail]
  by_cases hcells : w.HasCells
  · have heffective : (Declaration.dimension w.width w.height).Effective := hcells
    rw [if_pos hcells, if_pos (decide_eq_true heffective), ofDeclarations, List.foldl_cons]
    exact foldl_declare_tail w w.width w.height
  · have heffective : ¬ (Declaration.dimension w.width w.height).Effective := hcells
    rw [if_neg hcells, if_neg (by simpa using heffective)]
    exact foldl_declare_tail w 1 1

theorem HasCells.declare {w : World} (hw : w.HasCells) {d : Declaration} (hd : d.Effective) :
    (w.declare d).HasCells := by
  cases d with
  | dimension width height => exact hd
  | wall _ | beeper _ | agent _ | bag _ => exact hw

theorem HasCells.foldl_declare {w : World} (hw : w.HasCells) {ds : List Declaration}
    (hds : ∀ d ∈ ds, d.Effective) : (ds.foldl World.declare w).HasCells := by
  induction ds generalizing w with
  | nil => exact hw
  | cons d ds ih =>
      obtain ⟨hd, hds⟩ := List.forall_mem_cons.1 hds
      exact ih (hw.declare hd) hds

/-- Every text describes a grid with a cell. -/
theorem hasCells_ofText (t : Text) : (ofText t).HasCells := by
  have hinitial : initial.HasCells := by decide
  apply hinitial.foldl_declare
  intro d hd
  obtain ⟨line, -, hread⟩ := List.mem_filterMap.1 hd
  exact Declaration.effective_of_read? hread

theorem parse_format_of_hasCells {w : World} (h : w.HasCells) : parse w.format = w := by
  rw [parse, format, String.toList_ofList, ofText_toText, if_pos h]

end World

/-! ### Writing a text anew -/

theorem CommandLine.answer_fmtWorld {i : Invocation} {files : Files} {t : String}
    (hi : i.subcommand = .fmtWorld) (ht : files (i.file .world) = .ok t) :
    i.answer files = ⟨0, (World.parse t).format, ""⟩ := by
  simp only [Invocation.answer, hi, fmtWorldAnswer, readFile, ht]
  rfl

namespace World

/-- Writing a world and reading it again gives the world back exactly if its grid has a cell. So a text
that is written anew describes the same world as before, and writing it anew once more changes nothing. -/
theorem parse_format_round_trip :
    (∀ w : World, parse w.format = w ↔ 1 ≤ w.width ∧ 1 ≤ w.height) ∧
    (∀ t : String, parse (parse t).format = parse t) ∧
    ∀ (i : CommandLine.Invocation) (files : CommandLine.Files) (t : String),
      i.subcommand = .fmtWorld → files (i.file .world) = .ok t →
        ∃ t', i.answer files = ⟨0, t', ""⟩ ∧ parse t' = parse t ∧
          ∀ (j : CommandLine.Invocation) (files' : CommandLine.Files),
            j.subcommand = .fmtWorld → files' (j.file .world) = .ok t' → j.answer files' = ⟨0, t', ""⟩ := by
  have hkeep (t : String) : parse (parse t).format = parse t :=
    parse_format_of_hasCells (hasCells_ofText t.toList)
  refine ⟨fun w => ⟨fun h => ?_, parse_format_of_hasCells⟩, hkeep, ?_⟩
  · have hcells := hasCells_ofText w.format.toList
    change (parse w.format).HasCells at hcells
    rwa [h] at hcells
  · intro i files t hi ht
    refine ⟨(parse t).format, ?_, hkeep t, ?_⟩
    · exact CommandLine.answer_fmtWorld hi ht
    · intro j files' hj ht'
      rw [CommandLine.answer_fmtWorld hj ht', hkeep]

theorem parse_format_round_trip_narrow :
    parse (ofSize 1 4294967295).format = ofSize 1 4294967295 ∧ parse (ofSize 0 4).format ≠ ofSize 0 4 ∧
    ∃ t', (CommandLine.Invocation.mk .fmtWorld 10 false []).answer
        (fun _ => .ok "karel:(9,0);WEST\nDimension: (0, 4)") = ⟨0, t', ""⟩ ∧
      parse t' = parse "karel:(9,0);WEST\nDimension: (0, 4)" ∧
      (CommandLine.Invocation.mk .fmtWorld 10 false []).answer (fun _ => .ok t') = ⟨0, t', ""⟩ := by
  obtain ⟨hworld, -, hfmt⟩ := parse_format_round_trip
  refine ⟨(hworld _).2 (by decide), fun h => absurd ((hworld _).1 h) (by decide), ?_⟩
  obtain ⟨t', hanswer, hparse, hagain⟩ := hfmt (.mk .fmtWorld 10 false [])
    (fun _ => .ok "karel:(9,0);WEST\nDimension: (0, 4)") _ rfl rfl
  exact ⟨t', hanswer, hparse, hagain _ (fun _ => .ok t') rfl rfl⟩

end World

end GridRobot
