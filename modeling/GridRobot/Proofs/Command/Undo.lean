import GridRobot.Proofs.Command.Guards
import GridRobot.Proofs.Run.Grid
import GridRobot.Proofs.Run.Walls
import GridRobot.World.Declaration

/-!
# Commands that undo each other

An edge inside the grid is blocked from one of its cells exactly if it is from the other, and every other
way out of a cell of the grid is blocked (`World.isBlocked_opposite`, `World.isBlocked_of_leaves`). So a
robot in the grid can take back a move: it turns around, moves, and turns around again.

Picking a beeper takes it from the cell into the bag, and putting one takes it back. Both are counted in
words that stay at the greatest one. The count that goes down first always comes back up to where it was;
the one that goes up first comes back unless it was the greatest already, and then one beeper is lost.
-/

namespace GridRobot

/-! ### Edges from both sides -/

namespace World

/-- A cell with a neighbour inside the grid is away from the border on that side. -/
theorem not_atBorder_of_step? {w : World} {p q : Position} {d : Direction} (hstep : p.step? d = some q)
    (hq : w.inBounds q = true) : w.atBorder p d = false := by
  obtain ⟨hqx, hqy⟩ := Position.toNat_of_step? hstep
  obtain ⟨⟨hxl, hxu⟩, hyl, hyu⟩ := inBounds_iff.1 hq
  cases d with
  | north | east | south | west =>
      simp only [Direction.delta] at hqx hqy
      simp only [atBorder, decide_eq_false_iff_not, UInt32.le_iff_toNat_le, UInt32.reduceToNat]
      omega

/-- A step away from the border stays inside the grid. -/
theorem inBounds_of_step? {w : World} {p q : Position} {d : Direction} (hp : w.inBounds p = true)
    (hborder : w.atBorder p d = false) (hstep : p.step? d = some q) : w.inBounds q = true := by
  obtain ⟨hx, hy⟩ := along_of_step? hborder hstep (.start w.width p.x) (.start w.height p.y)
  obtain ⟨⟨hxl, hxu⟩, hyl, hyu⟩ := inBounds_iff.1 hp
  exact inBounds_iff.2 ⟨hx.inside hxl hxu, hy.inside hyl hyu⟩

theorem walled_opposite (w : World) (p q : Position) (d : Direction) :
    w.walled p d q = w.walled q d.opposite p := by
  rw [Bool.eq_iff_iff, walled_iff, walled_iff]
  simp only [Wall.Records, Direction.opposite_opposite, or_comm]

/-- An edge between two cells of the grid is blocked from one of them exactly if it is from the other. -/
theorem isBlocked_opposite {w : World} {p q : Position} {d : Direction} (hstep : p.step? d = some q)
    (hp : w.inBounds p = true) (hq : w.inBounds q = true) :
    w.isBlocked p d = w.isBlocked q d.opposite := by
  have hback := Position.step?_opposite hstep
  rw [isBlocked, not_atBorder_of_step? hstep hq, hstep, Bool.false_or]
  rw [isBlocked, not_atBorder_of_step? hback hp, hback, Bool.false_or]
  exact w.walled_opposite p q d

/-- No way leads out of the grid. -/
theorem isBlocked_of_leaves {w : World} {p : Position} {d : Direction} (hp : w.inBounds p = true)
    (hleaves : ∀ q, p.step? d = some q → w.inBounds q = false) : w.isBlocked p d = true := by
  cases hborder : w.atBorder p d with
  | true => rw [isBlocked, hborder, Bool.true_or]
  | false =>
      obtain ⟨q, hq⟩ := exists_step?_of_not_atBorder hborder
      have hin := inBounds_of_step? hp hborder hq
      rw [hleaves q hq] at hin
      cases hin

theorem turned_four (w : World) : w.turned.turned.turned.turned = w := by
  simp only [turned, Direction.turnLeft_four]

end World

/-- A robot that has moved inside the grid and turned around can move back to where it came from. -/
theorem Command.move_back {w w' : World} (hagent : w.inBounds w.agent.cell = true)
    (hmove : move.apply w = .ok w') : move.apply w'.turned.turned = .ok w.turned.turned := by
  rcases apply_ok hmove with ⟨-, hclear, cell, hcell, rfl⟩ | ⟨h, -⟩ | ⟨h, -⟩ | ⟨h, -⟩
  · have hin := World.inBounds_of_step? hagent (World.not_atBorder_of_not_isBlocked hclear) hcell
    have hback : w.isBlocked cell w.agent.facing.opposite = false := by
      rw [← World.isBlocked_opposite hcell hagent hin, hclear]
    obtain ⟨origin, horigin, hmoved⟩ :=
      exists_moved (w := World.turned (World.turned { w with agent := { w.agent with cell } })) hback
    change cell.step? w.agent.facing.opposite = some origin at horigin
    rw [Position.step?_opposite hcell, Option.some.injEq] at horigin
    subst horigin
    exact hmoved
  all_goals cases h

/-- Edges block both ways, and moves can be taken back. From a cell of the grid, the way to a neighbour in
the grid is blocked exactly if the way back is, and any other way is blocked. So after a move of a robot
that stands in the grid, turning around, moving and turning around again all succeed and restore the world
before the move. -/
theorem edges_block_both_ways (w : World) :
    (∀ p d, w.inBounds p = true →
      (∀ q, p.step? d = some q → w.inBounds q = true → w.isBlocked p d = w.isBlocked q d.opposite) ∧
      ((∀ q, p.step? d = some q → w.inBounds q = false) → w.isBlocked p d = true)) ∧
    (w.inBounds w.agent.cell = true → ∀ w', Command.move.apply w = .ok w' →
      [Command.turnLeft, .turnLeft, .move, .turnLeft, .turnLeft].foldlM Command.apply w' = .ok w) := by
  refine ⟨fun p d hp => ⟨fun q hstep hq => World.isBlocked_opposite hstep hp hq,
    World.isBlocked_of_leaves hp⟩, fun hagent w' hmove => ?_⟩
  rw [Command.foldlM_turnLeft, Command.foldlM_turnLeft, List.foldlM_cons, Command.move_back hagent hmove]
  show Except.ok w.turned.turned.turned.turned = Except.ok w
  rw [w.turned_four]

theorem edges_block_both_ways_wall :
    let w := World.addWall (.ofSize 3 1) ⟨⟨3, 1⟩, .west⟩
    let w' : World := { w with agent := ⟨⟨2, 1⟩, .east⟩ }
    w.inBounds ⟨2, 1⟩ = true ∧ w.inBounds ⟨3, 1⟩ = true ∧
      w.isBlocked ⟨2, 1⟩ .east = w.isBlocked ⟨3, 1⟩ .west ∧ w.isBlocked ⟨2, 1⟩ .south = true ∧
      Command.move.apply w = .ok w' ∧
      [Command.turnLeft, .turnLeft, .move, .turnLeft, .turnLeft].foldlM Command.apply w' = .ok w := by
  intro w w'
  obtain ⟨hedges, hmoves⟩ := edges_block_both_ways w
  have hin : w.inBounds ⟨2, 1⟩ = true := by decide
  have hnext : w.inBounds ⟨3, 1⟩ = true := by decide
  have hmove : Command.move.apply w = .ok w' := rfl
  refine ⟨hin, hnext, (hedges _ _ hin).1 ⟨3, 1⟩ (by decide) hnext, (hedges _ _ hin).2 ?_, hmove,
    hmoves (by decide) w' hmove⟩
  intro q hq
  have hsouth : Position.step? ⟨2, 1⟩ .south = some ⟨2, 0⟩ := by decide
  rw [hsouth, Option.some.injEq] at hq
  rw [← hq]
  decide

/-! ### Beepers there and back -/

namespace Layout

theorem set_set (l : Layout) (cell : Position) (count count' : UInt32) :
    (l.set cell count).set cell count' = l.set cell count' := by
  apply ext_count
  intro q
  rw [count_set, count_set, count_set]
  split <;> rfl

theorem set_count (l : Layout) (cell : Position) : l.set cell (l.count cell) = l := by
  apply ext_count
  intro q
  rw [count_set]
  split
  · next h => rw [h]
  · rfl

end Layout

/-- A count that has gone down comes back up to where it was. -/
theorem upOrStay_of_down? {n m : UInt32} (h : down? n = some m) : upOrStay m = n := by
  rw [upOrStay, up?_of_down? h, Option.getD_some]

/-- A count that has gone up comes back down to where it was, unless it was the greatest and stayed. -/
theorem down?_upOrStay (n : UInt32) :
    down? (upOrStay n) = some (if n.toNat + 1 < UInt32.size then n else n - 1) := by
  by_cases hroom : n.toNat + 1 < UInt32.size
  · have hup : up? n = some (n + 1) := if_pos hroom
    rw [if_pos hroom, upOrStay, hup, Option.getD_some, down?_of_up? hup]
  · have hup : up? n = none := if_neg hroom
    have hn : n ≠ 0 := by
      rintro rfl
      exact hroom (by decide)
    rw [if_neg hroom, upOrStay, hup, Option.getD_none]
    exact if_neg hn

namespace Command

/-- A beeper that was picked can be put back. The pile is then what it was, and so is the bag unless it was
full. -/
theorem put_of_picked {w w' : World} {n : UInt32} (hbag : w.bag = .finite n)
    (hpick : pickBeeper.apply w = .ok w') :
    putBeeper.apply w' =
      .ok { w with bag := .finite (if n.toNat + 1 < UInt32.size then n else n - 1) } := by
  rcases apply_ok hpick with ⟨h, -⟩ | ⟨h, -⟩ | ⟨-, count, hcount, rfl⟩ | ⟨h, -⟩
  · cases h
  · cases h
  · have hpile : upOrStay count = w.beepers.count w.agent.cell := upOrStay_of_down? hcount
    have hbeepers : (w.beepers.set w.agent.cell count).add w.agent.cell = w.beepers := by
      rw [Layout.add, Layout.count_set, if_pos rfl, hpile, Layout.set_set, Layout.set_count]
    rw [apply, put]
    dsimp only
    rw [hbag, Bag.give, Bag.take?, down?_upOrStay]
    simp only [Option.map_some, World.addBeeper, hbeepers]
  · cases h

/-- A beeper that was put can be picked again. The bag is then what it was, and so is the pile unless it
was full. -/
theorem picked_of_put {w w' : World} {n : UInt32} (hbag : w.bag = .finite n)
    (hput : putBeeper.apply w = .ok w') :
    pickBeeper.apply w' =
      .ok (w.setBeepers w.agent.cell
        (if (w.beepersAt w.agent.cell).toNat + 1 < UInt32.size then w.beepersAt w.agent.cell
          else w.beepersAt w.agent.cell - 1)) := by
  rcases apply_ok hput with ⟨h, -⟩ | ⟨h, -⟩ | ⟨h, -⟩ | ⟨-, bag, htake, rfl⟩
  · cases h
  · cases h
  · cases h
  · rw [hbag] at htake
    obtain ⟨m, hm, rfl⟩ := Option.map_eq_some_iff.1 htake
    have hgive : (Bag.finite m).give = w.bag := by rw [Bag.give, upOrStay_of_down? hm, hbag]
    rw [apply, picked, World.removeBeeper?, Layout.remove?]
    dsimp only
    rw [Layout.add, Layout.count_set, if_pos rfl, down?_upOrStay, Option.map_some, Option.map_some]
    simp only [Layout.set_set, hgive]
    rfl

end Command

/-- Picking and putting a beeper undo each other, as long as the count that goes up first has room. With a
finite bag, what was picked can be put back, and that restores the world unless the bag was full, when
the bag is left with one beeper less; and what was put can be picked again, and that restores the world
unless the cell was full, when the cell is left with one beeper less. -/
theorem pick_and_put_undo {w : World} {n : UInt32} (hbag : w.bag = .finite n) :
    (∀ w', Command.pickBeeper.apply w = .ok w' →
      Command.putBeeper.apply w' =
        .ok (if n.toNat + 1 < UInt32.size then w else { w with bag := .finite (n - 1) })) ∧
    (∀ w', Command.putBeeper.apply w = .ok w' →
      Command.pickBeeper.apply w' =
        .ok (if (w.beepersAt w.agent.cell).toNat + 1 < UInt32.size then w
          else w.setBeepers w.agent.cell (w.beepersAt w.agent.cell - 1))) := by
  refine ⟨fun w' hpick => ?_, fun w' hput => ?_⟩
  · rw [Command.put_of_picked hbag hpick]
    split
    · rw [← hbag]
    · rfl
  · rw [Command.picked_of_put hbag hput]
    split
    · rw [World.setBeepers, World.beepersAt, Layout.set_count]
    · rfl

theorem pick_and_put_undo_last :
    let w := { World.setBeepers .initial ⟨1, 1⟩ 1 with bag := .finite 4294967294 }
    let w' := { World.initial with bag := .finite 4294967295 }
    let w'' := { World.setBeepers .initial ⟨1, 1⟩ 2 with bag := .finite 4294967293 }
    (Command.pickBeeper.apply w = .ok w' ∧ Command.putBeeper.apply w' = .ok w) ∧
      Command.putBeeper.apply w = .ok w'' ∧ Command.pickBeeper.apply w'' = .ok w := by
  intro w w' w''
  obtain ⟨hpick, hput⟩ := pick_and_put_undo (w := w) rfl
  have hpicked : Command.pickBeeper.apply w = .ok w' := by
    unfold w w'
    rfl
  have hputs : Command.putBeeper.apply w = .ok w'' := rfl
  exact ⟨⟨hpicked, hpick w' hpicked⟩, hputs, hput w'' hputs⟩

/-- Where the bag is full, picking a beeper and putting it back takes one out of the bag; where the cell is
full, putting a beeper and picking it again takes one off the cell. -/
theorem full_counts_lose_a_beeper :
    let bagFull := World.parse "Beeper: (1, 1); 1\nBeeperBag: 4294967295"
    let cellFull := World.parse "Beeper: (1, 1); 4294967295\nBeeperBag: 1"
    (bagFull.bag = .finite 4294967295 ∧
      ∃ w' w'', Command.pickBeeper.apply bagFull = .ok w' ∧ Command.putBeeper.apply w' = .ok w'' ∧
        w''.bag = .finite 4294967294 ∧ w'' ≠ bagFull) ∧
    (cellFull.bag = .finite 1 ∧
      ∃ w' w'', Command.putBeeper.apply cellFull = .ok w' ∧ Command.pickBeeper.apply w' = .ok w'' ∧
        w''.beepersAt ⟨1, 1⟩ = 4294967294 ∧ w'' ≠ cellFull) := by
  intro bagFull cellFull
  have hbagFull : bagFull = { World.setBeepers .initial ⟨1, 1⟩ 1 with bag := .finite 4294967295 } := by
    decide +kernel
  have hcellFull : cellFull = { World.setBeepers .initial ⟨1, 1⟩ 4294967295 with bag := .finite 1 } := by
    decide +kernel
  rw [hbagFull, hcellFull]
  exact ⟨⟨rfl, _, _, rfl, rfl, rfl, by decide⟩, rfl, _, _, rfl, rfl, rfl, by decide⟩

end GridRobot
