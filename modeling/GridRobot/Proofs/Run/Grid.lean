import GridRobot.Proofs.Run.Invariant
import GridRobot.Proofs.World.Edge

/-!
# Runs stay on the map

No command changes the sides of the grid or its walls, and none takes the robot past a border. A robot that
starts outside the grid is not put back inside, but it gets no further away: a coordinate stays between
where it started and the side of the grid it moves towards. A robot that starts inside the grid stays
there, and so all the beepers that it moves lie inside.
-/

namespace GridRobot

/-- Where a coordinate can have come to on a side of the grid. -/
structure Along (side start n : UInt32) : Prop where
  lower : min start.toNat 1 ≤ n.toNat
  upper : n.toNat ≤ max start.toNat side.toNat

theorem Along.start (side start : UInt32) : Along side start start :=
  ⟨Nat.min_le_left _ _, Nat.le_max_left _ _⟩

theorem Along.inside {side start n : UInt32} (h : Along side start n) (hlower : 1 ≤ start.toNat)
    (hupper : start.toNat ≤ side.toNat) : 1 ≤ n.toNat ∧ n.toNat ≤ side.toNat := by
  have hl := h.lower
  have hu := h.upper
  omega

namespace World

theorem inBounds_iff {w : World} {p : Position} :
    w.inBounds p = true ↔ (1 ≤ p.x.toNat ∧ p.x.toNat ≤ w.width.toNat) ∧
      1 ≤ p.y.toNat ∧ p.y.toNat ≤ w.height.toNat := by
  simp only [inBounds, Bool.and_eq_true, decide_eq_true_eq, UInt32.le_iff_toNat_le, and_assoc]
  rfl

/-- A step away from the border keeps both coordinates where they can be. -/
theorem along_of_step? {w : World} {start p q : Position} {d : Direction} (hborder : w.atBorder p d = false)
    (hstep : p.step? d = some q) (hx : Along w.width start.x p.x) (hy : Along w.height start.y p.y) :
    Along w.width start.x q.x ∧ Along w.height start.y q.y := by
  obtain ⟨hqx, hqy⟩ := Position.toNat_of_step? hstep
  have hside := of_not_atBorder hborder
  have hxl := hx.lower
  have hxu := hx.upper
  have hyl := hy.lower
  have hyu := hy.upper
  cases d with
  | north | east | south | west =>
      simp only [Direction.delta] at hqx hqy hside
      refine ⟨⟨?_, ?_⟩, ⟨?_, ?_⟩⟩
      all_goals omega

/-- What a world that a run comes through has in common with the one it started in. -/
structure OnMap (start w : World) : Prop where
  width : w.width = start.width
  height : w.height = start.height
  walls : w.walls = start.walls
  x : Along start.width start.agent.cell.x w.agent.cell.x
  y : Along start.height start.agent.cell.y w.agent.cell.y
  inBounds : start.inBounds start.agent.cell = true → w.inBounds w.agent.cell = true
  outside : start.inBounds start.agent.cell = true →
    ∀ cell, start.inBounds cell = false → w.beepersAt cell = start.beepersAt cell

theorem OnMap.refl (w : World) : w.OnMap w :=
  ⟨rfl, rfl, rfl, .start _ _, .start _ _, id, fun _ _ _ => rfl⟩

theorem inBounds_of_along {start w : World} (hwidth : w.width = start.width)
    (hheight : w.height = start.height) (hx : Along start.width start.agent.cell.x w.agent.cell.x)
    (hy : Along start.height start.agent.cell.y w.agent.cell.y)
    (hstart : start.inBounds start.agent.cell = true) : w.inBounds w.agent.cell = true := by
  rw [inBounds_iff] at hstart ⊢
  rw [hwidth, hheight]
  exact ⟨hx.inside hstart.1.1 hstart.1.2, hy.inside hstart.2.1 hstart.2.2⟩

/-- Only the count of the robot's own cell can change. -/
theorem OnMap.set_beepers {start w : World} (h : start.OnMap w) (count : UInt32) (bag : Bag) :
    start.OnMap { w with beepers := w.beepers.set w.agent.cell count, bag } := by
  refine ⟨h.width, h.height, h.walls, h.x, h.y, h.inBounds, ?_⟩
  intro hstart cell hcell
  have hne : w.agent.cell ≠ cell := by
    intro heq
    have hin := h.inBounds hstart
    rw [World.inBounds, h.width, h.height, heq] at hin
    rw [World.inBounds, hin] at hcell
    cases hcell
  show (w.beepers.set w.agent.cell count).count cell = start.beepersAt cell
  rw [Layout.count_set, if_neg hne]
  exact h.outside hstart cell hcell

theorem OnMap.apply {start w w' : World} {action : Command} (h : start.OnMap w)
    (haction : action.apply w = .ok w') : start.OnMap w' := by
  rcases Command.apply_ok haction with ⟨-, hclear, cell, hcell, rfl⟩ | ⟨-, rfl⟩ | ⟨-, count, -, rfl⟩ |
    ⟨-, bag, -, rfl⟩
  · have hborder := not_atBorder_of_not_isBlocked hclear
    have hx := h.x
    have hy := h.y
    rw [← h.width] at hx
    rw [← h.height] at hy
    obtain ⟨hx', hy'⟩ := along_of_step? hborder hcell hx hy
    rw [h.width] at hx'
    rw [h.height] at hy'
    exact ⟨h.width, h.height, h.walls, hx', hy', inBounds_of_along h.width h.height hx' hy', h.outside⟩
  · exact ⟨h.width, h.height, h.walls, h.x, h.y, h.inBounds, h.outside⟩
  · exact h.set_beepers count w.bag.give
  · exact h.set_beepers (upOrStay (w.beepersAt w.agent.cell)) bag

end World

/-- The worlds that a run shows: the one after each command, and the one it ends in. -/
def Outcome.worlds (o : Outcome) : List World := o.trace.map (·.world) ++ [o.world]

/-- What holds of the world that a run starts in and is kept by every command holds of all that it shows. -/
theorem forall_worlds_of_runScript {I : World → Prop} {world : World} (hstart : I world)
    (hcommand : ∀ w action w', I w → Command.apply w action = .ok w' → I w') (script : String)
    (limit : Nat) : ∀ w ∈ (RunResult.reached (runScript script world limit)).worlds, I w := by
  have hreached : I (RunResult.reached (runScript script world limit)).world ∧
      ∀ entry ∈ (RunResult.reached (runScript script world limit)).trace, I entry.world := by
    apply runScript_induction (I := fun w entries => I w ∧ ∀ entry ∈ entries, I entry.world)
    · exact ⟨hstart, fun entry hentry => absurd hentry List.not_mem_nil⟩
    · intro w entries action w' ⟨hw, hentries⟩ haction
      have hw' := hcommand w action w' hw haction
      refine ⟨hw', fun entry hentry => ?_⟩
      rcases List.mem_append.1 hentry with hentry | hentry
      · exact hentries entry hentry
      · rw [List.mem_singleton.1 hentry]
        exact hw'
  intro w hw
  rcases List.mem_append.1 hw with hw | hw
  · obtain ⟨entry, hentry, rfl⟩ := List.mem_map.1 hw
    exact hreached.2 entry hentry
  · rw [List.mem_singleton.1 hw]
    exact hreached.1

theorem onMap_of_runScript (script : String) (world : World) (limit : Nat) :
    ∀ w ∈ (RunResult.reached (runScript script world limit)).worlds, world.OnMap w :=
  forall_worlds_of_runScript (.refl world) (fun _ _ _ hw haction => hw.apply haction) script limit

/-- A run never leaves the grid and never alters the map, and no step that it takes or looks at leaves the
words: past the border a cell has a neighbour, so that neither the look across an edge nor a move ever
finds none. -/
theorem runScript_stays_on_map (script : String) (world : World) (limit : Nat) :
    (∀ w ∈ (RunResult.reached (runScript script world limit)).worlds, world.OnMap w) ∧
      (∀ (w : World) (p : Position) (d : Direction), w.atBorder p d = false →
        ∃ q, p.step? d = some q ∧ w.isBlocked p d = w.walled p d q) ∧
      ∀ w : World, w.isBlocked w.agent.cell w.agent.facing = false →
        ∃ cell, w.agent.cell.step? w.agent.facing = some cell ∧
          Command.apply w .move = .ok { w with agent := { w.agent with cell } } := by
  refine ⟨onMap_of_runScript script world limit, fun w p d hborder => ?_, fun w hclear => ?_⟩
  · obtain ⟨q, hq⟩ := World.exists_step?_of_not_atBorder hborder
    refine ⟨q, hq, ?_⟩
    rw [World.isBlocked, hborder, hq, Bool.false_or]
  · have hborder := World.not_atBorder_of_not_isBlocked hclear
    obtain ⟨cell, hcell⟩ := World.exists_step?_of_not_atBorder hborder
    refine ⟨cell, hcell, ?_⟩
    rw [Command.apply, Command.moved, hclear, hcell]
    rfl

theorem runScript_stays_on_map_move :
    (World.ofSize 2 1).OnMap (RunResult.reached (runScript "def main():move()" (.ofSize 2 1) 4)).world ∧
      (World.ofSize 2 1).atBorder ⟨1, 1⟩ .east = false ∧
      (∃ q, Position.step? ⟨1, 1⟩ .east = some q ∧
        (World.ofSize 2 1).isBlocked ⟨1, 1⟩ .east = (World.ofSize 2 1).walled ⟨1, 1⟩ .east q) ∧
      ∃ cell, Position.step? ⟨1, 1⟩ .east = some cell ∧
        Command.apply (.ofSize 2 1) .move = .ok { World.ofSize 2 1 with agent := ⟨cell, .east⟩ } := by
  obtain ⟨hworlds, hborder, hmove⟩ := runScript_stays_on_map "def main():move()" (.ofSize 2 1) 4
  refine ⟨hworlds _ ?_, by decide, hborder _ _ _ (by decide), hmove (.ofSize 2 1) (by decide)⟩
  exact List.mem_append_right _ List.mem_cons_self

end GridRobot
