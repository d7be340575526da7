import GridRobot.Proofs.Json.World
import GridRobot.Proofs.World.Edge
import GridRobot.Proofs.World.Layout

/-!
# Worlds under edits

Beepers are put down and taken away by writers that change the list of piles in place. Only one of them,
`Pile.assign`, asks whether the count it is to write is zero. `Pile.bump` lists a cell as empty before it
counts up, and `Pile.take` counts down in place unless a single beeper is left. None of them leaves an
empty pile behind, so the list of a layout, which cannot hold one, is exactly what they write
(`World.piles_edit`).

A world that has been made with a cell keeps its sides under all edits (`World.HasCells.edits`), and its
beepers are determined by their counts.
-/

namespace GridRobot

/-! ### Writers of piles -/

theorem upOrStay_ne_zero (n : UInt32) : upOrStay n ≠ 0 := by
  unfold upOrStay
  cases hup : up? n with
  | none =>
      rintro rfl
      cases hup
  | some m =>
      rintro rfl
      exact absurd (toNat_of_up? hup) (Nat.succ_ne_zero _).symm

namespace Pile

def assign (cell : Position) (count : UInt32) (ps : List Pile) : List Pile :=
  if count = 0 then drop cell ps else put cell count ps

/-- A cell that is not listed is listed as empty, and then counted up. -/
def bump (cell : Position) (ps : List Pile) : List Pile :=
  let listed := if cell ∈ ps.map (·.cell) then ps else put cell 0 ps
  put cell (upOrStay (countIn listed cell)) listed

/-- A pile of one is taken off the list, a larger one counted down. -/
def take (cell : Position) (ps : List Pile) : List Pile :=
  match ps.find? (·.cell = cell) with
  | some p => if 1 < p.count then put cell (p.count - 1) ps else drop cell ps
  | none => ps

theorem put_put (cell : Position) (count count' : UInt32) (ps : List Pile) :
    put cell count' (put cell count ps) = put cell count' ps := by
  have hirrefl := Position.lt_irrefl cell
  induction ps with
  | nil => simp [put, hirrefl]
  | cons p ps ih =>
      by_cases hlt : cell < p.cell
      · simp [put, hlt, hirrefl]
      · by_cases heq : p.cell = cell
        · simp [put, heq, hirrefl]
        · simp [put, hlt, heq, ih]

theorem bump_eq (cell : Position) (ps : List Pile) :
    bump cell ps = put cell (upOrStay (countIn ps cell)) ps := by
  unfold bump
  dsimp only
  split
  · rfl
  · next hcell => rw [countIn_put, if_pos rfl, countIn_of_not_mem hcell, put_put]

end Pile

namespace Layout

theorem piles_set (l : Layout) (cell : Position) (count : UInt32) :
    (l.set cell count).piles = Pile.assign cell count l.piles := by
  unfold set Pile.assign
  split <;> rfl

theorem piles_add (l : Layout) (cell : Position) : (l.add cell).piles = Pile.bump cell l.piles := by
  rw [add, piles_set, Pile.assign, if_neg (upOrStay_ne_zero _), Pile.bump_eq]
  rfl

theorem piles_remove? (l : Layout) (cell : Position) :
    ((l.remove? cell).getD l).piles = Pile.take cell l.piles := by
  have hcount : l.count cell = match l.piles.find? (·.cell = cell) with
    | some p => p.count
    | none => 0 := rfl
  unfold Pile.take
  cases hfind : l.piles.find? (·.cell = cell) with
  | none =>
      rw [hfind] at hcount
      rw [remove?, hcount]
      rfl
  | some p =>
      rw [hfind] at hcount
      have hp : p.count ≠ 0 := l.positive p (List.mem_of_find?_eq_some hfind)
      have hdown : down? (l.count cell) = some (p.count - 1) := by
        rw [hcount]
        exact if_neg hp
      have hone : p.count - 1 = 0 ↔ ¬ 1 < p.count := by
        grind
      rw [remove?, hdown]
      show (l.set cell (p.count - 1)).piles = _
      rw [piles_set, Pile.assign]
      simp only [hone, ite_not]

theorem piles_foldl_set {ps : List Pile} (hps : ∀ p ∈ ps, p.count ≠ 0) (l : Layout) :
    (ps.foldl (fun l p => l.set p.cell p.count) l).piles =
      ps.foldl (fun qs p => Pile.put p.cell p.count qs) l.piles := by
  induction ps generalizing l with
  | nil => rfl
  | cons p ps ih =>
      obtain ⟨hp, hps⟩ := List.forall_mem_cons.1 hps
      rw [List.foldl_cons, ih hps, piles_set, Pile.assign, if_neg hp, List.foldl_cons]

theorem piles_ofPiles (ps : List Pile) : (ofPiles ps).piles =
    (ps.filter (·.count ≠ 0)).foldl (fun qs p => Pile.put p.cell p.count qs) [] :=
  piles_foldl_set (fun _ hp => of_decide_eq_true (List.mem_filter.1 hp).2) empty

end Layout

/-! ### Edits -/

inductive Edit where
  | setBeepers (cell : Position) (count : UInt32)
  | addBeeper (cell : Position)
  | removeBeeper (cell : Position)
  | addWall (wall : Wall)
  | place (agent : Pose)
  | perform (action : Command)
  deriving DecidableEq, Repr

/-- What an edit writes into the list of piles of a world. -/
def Edit.write (w : World) (ps : List Pile) : Edit → List Pile
  | .setBeepers cell count => Pile.assign cell count ps
  | .addBeeper cell => Pile.bump cell ps
  | .removeBeeper cell => Pile.take cell ps
  | .perform .pickBeeper => Pile.take w.agent.cell ps
  | .perform .putBeeper => if w.bag.hasBeepers then Pile.bump w.agent.cell ps else ps
  | .addWall _ | .place _ | .perform .move | .perform .turnLeft => ps

namespace World

/-- The world after an edit. What cannot be done is not done. -/
def edit (w : World) : Edit → World
  | .setBeepers cell count => w.setBeepers cell count
  | .addBeeper cell => w.addBeeper cell
  | .removeBeeper cell => (w.removeBeeper? cell).getD w
  | .addWall wall => w.addWall wall
  | .place agent => { w with agent }
  | .perform action =>
      match action.apply w with
      | .ok w' => w'
      | .error _ => w

def edits (w : World) (es : List Edit) : World := es.foldl edit w

end World

/-- What edits write into the list of piles, one after the other. -/
def Edit.writeAll (w : World) (ps : List Pile) : List Edit → List Pile
  | [] => ps
  | e :: es => writeAll (w.edit e) (e.write w ps) es

namespace World

theorem beepers_removed (w : World) (cell : Position) :
    (w.edit (.removeBeeper cell)).beepers = (w.beepers.remove? cell).getD w.beepers := by
  simp only [edit, removeBeeper?]
  cases w.beepers.remove? cell with
  | none => rfl
  | some beepers => rfl

theorem beepers_moved (w : World) : (w.edit (.perform .move)).beepers = w.beepers := by
  simp only [edit]
  split
  · next w' hmove =>
      rcases Command.apply_ok hmove with ⟨-, -, cell, -, rfl⟩ | ⟨h, -⟩ | ⟨h, -⟩ | ⟨h, -⟩
      · rfl
      all_goals cases h
  · rfl

theorem beepers_picked (w : World) :
    (w.edit (.perform .pickBeeper)).beepers = (w.edit (.removeBeeper w.agent.cell)).beepers := by
  simp only [edit, Command.apply, Command.picked]
  cases w.removeBeeper? w.agent.cell with
  | none => rfl
  | some w' => rfl

theorem beepers_put (w : World) : (w.edit (.perform .putBeeper)).beepers =
    if w.bag.hasBeepers then w.beepers.add w.agent.cell else w.beepers := by
  simp only [edit, Command.apply, Command.put, ← Bag.take?_isSome]
  cases w.bag.take? with
  | none => rfl
  | some bag => rfl

theorem piles_edit (w : World) (e : Edit) : (w.edit e).beepers.piles = e.write w w.beepers.piles := by
  have hremoved : ∀ cell, (w.edit (.removeBeeper cell)).beepers.piles = Pile.take cell w.beepers.piles := by
    intro cell
    rw [beepers_removed]
    exact w.beepers.piles_remove? cell
  cases e with
  | setBeepers cell count => exact w.beepers.piles_set cell count
  | addBeeper cell => exact w.beepers.piles_add cell
  | removeBeeper cell => exact hremoved cell
  | addWall wall => rfl
  | place agent => rfl
  | perform action =>
      cases action with
      | move => rw [beepers_moved, Edit.write]
      | turnLeft => rfl
      | pickBeeper =>
          rw [beepers_picked]
          exact hremoved w.agent.cell
      | putBeeper =>
          rw [beepers_put, Edit.write]
          split
          · exact w.beepers.piles_add w.agent.cell
          · rfl

theorem piles_edits (w : World) (es : List Edit) :
    (w.edits es).beepers.piles = Edit.writeAll w w.beepers.piles es := by
  induction es generalizing w with
  | nil => rfl
  | cons e es ih =>
      show ((w.edit e).edits es).beepers.piles = Edit.writeAll (w.edit e) (e.write w w.beepers.piles) es
      rw [ih, piles_edit]

theorem sides_edit (w : World) (e : Edit) : (w.edit e).width = w.width ∧ (w.edit e).height = w.height := by
  cases e with
  | removeBeeper cell =>
      simp only [edit, removeBeeper?]
      cases w.beepers.remove? cell with
      | none => exact ⟨rfl, rfl⟩
      | some beepers => exact ⟨rfl, rfl⟩
  | perform action =>
      simp only [edit]
      split
      · next w' haction =>
          rcases Command.apply_ok haction with ⟨-, -, _, -, rfl⟩ | ⟨-, rfl⟩ | ⟨-, _, -, rfl⟩ | ⟨-, _, -, rfl⟩
          all_goals exact ⟨rfl, rfl⟩
      · exact ⟨rfl, rfl⟩
  | setBeepers _ _ | addBeeper _ | addWall _ | place _ => exact ⟨rfl, rfl⟩

theorem HasCells.edit {w : World} (hw : w.HasCells) (e : Edit) : (w.edit e).HasCells := by
  obtain ⟨hwidth, hheight⟩ := w.sides_edit e
  exact ⟨hwidth ▸ hw.1, hheight ▸ hw.2⟩

theorem HasCells.edits {w : World} (hw : w.HasCells) (es : List Edit) : (w.edits es).HasCells := by
  induction es generalizing w with
  | nil => exact hw
  | cons e es ih => exact ih (hw.edit e)

/-- A world as it is made: an empty grid, or what a text or a JSON document describes. -/
inductive Made : World → Prop where
  | ofSize {width height : UInt32} (hwidth : 1 ≤ width) (hheight : 1 ≤ height) : Made (ofSize width height)
  | parse (t : String) : Made (parse t)
  | ofJson {s : String} {w : World} (h : ofJson s = .ok w) : Made w

theorem Made.hasCells {w : World} (h : w.Made) : w.HasCells := by
  cases h with
  | ofSize hwidth hheight => exact ⟨hwidth, hheight⟩
  | parse t => exact hasCells_ofText _
  | ofJson h => exact hasCells_of_ofJson h

/-- No edit stores an empty pile or a side of zero. A world that has been made and then edited in any way
has a cell. The list of its piles is what the writers of the edits leave, one after the other, as that of
a JSON document is what is left by putting down its piles that are not empty. The cells listed are those
that hold beepers, ascending, so any other world has the same beepers if every cell holds as many. -/
theorem edits_canonical {w : World} (hw : w.Made) (es : List Edit) :
    let v := w.edits es
    (1 ≤ v.width ∧ 1 ≤ v.height) ∧
    v.beepers.piles = Edit.writeAll w w.beepers.piles es ∧
    (∀ ps, (Layout.ofPiles ps).piles =
      (ps.filter (·.count ≠ 0)).foldl (fun qs p => Pile.put p.cell p.count qs) []) ∧
    (∀ p ∈ v.beepers.piles, p.count ≠ 0) ∧
    v.beepers.cells.Pairwise (· < ·) ∧
    (∀ cell, cell ∈ v.beepers.cells ↔ 0 < v.beepersAt cell) ∧
    ∀ v' : World, v.beepers = v'.beepers ↔ ∀ cell, v.beepersAt cell = v'.beepersAt cell := by
  intro v
  refine ⟨hw.hasCells.edits es, w.piles_edits es, Layout.piles_ofPiles, v.beepers.positive, ?_, ?_, ?_⟩
  · exact List.pairwise_map.2 v.beepers.ascending
  · intro cell
    rw [Layout.mem_cells_iff]
    exact UInt32.pos_iff_ne_zero.symm
  · intro v'
    exact ⟨fun h cell => congrArg (·.count cell) h, Layout.ext_count⟩

theorem edits_canonical_picked :
    let v := (World.parse "Beeper: (1, 1); 2").edits
      [.perform .pickBeeper, .perform .pickBeeper, .perform .pickBeeper, .addBeeper ⟨2, 1⟩]
    v.beepers.cells = [⟨2, 1⟩] ∧ 0 < v.beepersAt ⟨2, 1⟩ := by
  intro v
  have hcells : v.beepers.cells = [⟨2, 1⟩] := by decide +kernel
  obtain ⟨-, -, -, -, -, hlisted, -⟩ := edits_canonical (.parse "Beeper: (1, 1); 2")
    [.perform .pickBeeper, .perform .pickBeeper, .perform .pickBeeper, .addBeeper ⟨2, 1⟩]
  exact ⟨hcells, (hlisted ⟨2, 1⟩).1 (hcells ▸ List.mem_singleton_self _)⟩

end World

end GridRobot
