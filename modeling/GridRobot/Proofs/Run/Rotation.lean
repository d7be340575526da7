import GridRobot.Proofs.Run.Grid
import GridRobot.Proofs.Run.View
import GridRobot.Proofs.Run.Walls

/-!
# Quarter turns

A world can be turned counter-clockwise by a quarter: the sides of the grid change places, what stood on a
cell stands on the cell that the turn takes it to, and every direction becomes the one on its left. Edges
turn along with their cells (`World.isBlocked_rotated`), so a robot inside the grid does not notice, unless
it asks for the compass. Runs of scripts that do not ask for it therefore turn along with the world
(`runScript_rotated`).

Coordinates are words, and the turn of a cell is one to one on all pairs of words. Only the borders of the
grid need the robot's own cell to lie inside; walls and beepers may be anywhere.
-/

namespace GridRobot

/-! ### Cells -/

/-- Rows counted from above and rows counted from below. -/
theorem toNat_fromAbove {height y : UInt32} (hlower : 1 ≤ y.toNat) (hupper : y.toNat ≤ height.toNat) :
    (height + 1 - y).toNat + y.toNat = height.toNat + 1 := by
  have hheight : height.toNat < UInt32.size := height.toNat_lt_size
  have hsplit : height + 1 - y = height - y + 1 := by grind
  have hsub : (height - y).toNat = height.toNat - y.toNat :=
    UInt32.toNat_sub_of_le height y (UInt32.le_iff_toNat_le.2 hupper)
  have hadd : (height - y + 1).toNat = (height - y).toNat + 1 := by
    rw [UInt32.toNat_add]
    apply Nat.mod_eq_of_lt
    show (height - y).toNat + 1 < UInt32.size
    omega
  rw [hsplit, hadd, hsub]
  omega

/-- A step up is a step down when rows are counted from above. -/
theorem down?_fromAbove {height y y' : UInt32} (hstep : up? y = some y') (hlower : 1 ≤ y.toNat)
    (hupper : y'.toNat ≤ height.toNat) : down? (height + 1 - y) = some (height + 1 - y') := by
  have hy' := toNat_of_up? hstep
  have hlt : y.toNat ≤ height.toNat := by omega
  have habove := toNat_fromAbove hlower hlt
  have habove' := toNat_fromAbove (y := y') (by omega) hupper
  obtain ⟨x, hx⟩ := exists_down? (n := height + 1 - y) (by omega)
  have hback := toNat_of_down? hx
  rw [hx, Option.some.injEq, ← UInt32.toNat_inj]
  omega

namespace Position

/-- Where a quarter turn of a grid with the given height takes a cell. -/
def rotated (height : UInt32) (p : Position) : Position := ⟨height + 1 - p.y, p.x⟩

theorem exists_rotated_eq (height : UInt32) (q : Position) : ∃ p : Position, p.rotated height = q := by
  refine ⟨⟨q.y, height + 1 - q.x⟩, ?_⟩
  have hback : height + 1 - (height + 1 - q.x) = q.x := by grind
  rw [rotated, hback]

theorem rotated_inj {height : UInt32} {p q : Position} :
    p.rotated height = q.rotated height ↔ p = q := by
  refine ⟨fun h => ?_, fun h => congrArg _ h⟩
  obtain ⟨hy, hx⟩ := Position.mk.inj h
  have hy' : p.y = q.y := by grind
  cases p
  cases q
  simp_all

end Position

theorem Direction.turnLeft_inj {d e : Direction} : d.turnLeft = e.turnLeft ↔ d = e := by
  refine ⟨fun h => ?_, fun h => congrArg _ h⟩
  rw [← d.turnLeft_four, h, e.turnLeft_four]

/-! ### Layouts -/

namespace Layout

/-- The layout with every pile on the cell that a map takes it to. -/
def relocated (f : Position → Position) (l : Layout) : Layout :=
  l.piles.foldr (fun p m => m.set (f p.cell) p.count) empty

variable {f : Position → Position} (hinj : ∀ p q, f p = f q ↔ p = q)

include hinj

theorem count_relocated (l : Layout) (p : Position) : (l.relocated f).count (f p) = l.count p := by
  show (l.piles.foldr (fun p m => m.set (f p.cell) p.count) empty).count (f p) = Pile.countIn l.piles p
  induction l.piles with
  | nil => rfl
  | cons pile piles ih =>
      rw [List.foldr_cons, count_set, Pile.countIn_cons, ih]
      simp only [hinj]

theorem relocated_set (hsurj : ∀ q, ∃ p, f p = q) (l : Layout) (cell : Position) (count : UInt32) :
    (l.set cell count).relocated f = (l.relocated f).set (f cell) count := by
  apply ext_count
  intro q
  obtain ⟨p, rfl⟩ := hsurj q
  rw [count_relocated hinj, count_set, count_set, count_relocated hinj]
  simp only [hinj]

end Layout

/-! ### Worlds -/

def Pose.rotated (height : UInt32) (pose : Pose) : Pose :=
  ⟨pose.cell.rotated height, pose.facing.turnLeft⟩

def Wall.rotated (height : UInt32) (wall : Wall) : Wall :=
  ⟨wall.cell.rotated height, wall.side.turnLeft⟩

namespace World

/-- The world after a quarter turn counter-clockwise. -/
def rotated (w : World) : World where
  width := w.height
  height := w.width
  walls := w.walls.map (Wall.rotated w.height)
  beepers := w.beepers.relocated (Position.rotated w.height)
  agent := w.agent.rotated w.height
  bag := w.bag

theorem beepersAt_rotated (w : World) (p : Position) :
    w.rotated.beepersAt (p.rotated w.height) = w.beepersAt p :=
  Layout.count_relocated (fun _ _ => Position.rotated_inj) w.beepers p

theorem rotated_set_beepers (w : World) (cell : Position) (count : UInt32) (bag : Bag) :
    rotated { w with beepers := w.beepers.set cell count, bag } =
      { w.rotated with beepers := w.rotated.beepers.set (cell.rotated w.height) count, bag } := by
  have hset := Layout.relocated_set (fun _ _ => Position.rotated_inj)
    (Position.exists_rotated_eq w.height) w.beepers cell count
  unfold rotated
  rw [hset]

variable {w : World} {p : Position}

theorem atBorder_rotated (hp : w.inBounds p = true) (d : Direction) :
    w.rotated.atBorder (p.rotated w.height) d.turnLeft = w.atBorder p d := by
  obtain ⟨-, hyl, hyu⟩ := inBounds_iff.1 hp
  have hrow := toNat_fromAbove hyl hyu
  have hone : (1 : UInt32).toNat = 1 := rfl
  rw [Bool.eq_iff_iff]
  cases d with
  | north =>
      show decide (w.height + 1 - p.y ≤ 1) = true ↔ decide (w.height ≤ p.y) = true
      rw [decide_eq_true_eq, decide_eq_true_eq, UInt32.le_iff_toNat_le, UInt32.le_iff_toNat_le]
      omega
  | east => exact Iff.rfl
  | south =>
      show decide (w.height ≤ w.height + 1 - p.y) = true ↔ decide (p.y ≤ 1) = true
      rw [decide_eq_true_eq, decide_eq_true_eq, UInt32.le_iff_toNat_le, UInt32.le_iff_toNat_le]
      omega
  | west => exact Iff.rfl

/-- Away from the border the neighbour of a cell turns along with it. -/
theorem step?_rotated {q : Position} {d : Direction} (hp : w.inBounds p = true)
    (hborder : w.atBorder p d = false) (hstep : p.step? d = some q) :
    (p.rotated w.height).step? d.turnLeft = some (q.rotated w.height) := by
  obtain ⟨-, hyl, hyu⟩ := inBounds_iff.1 hp
  have hside := of_not_atBorder hborder
  cases d with
  | north =>
      obtain ⟨y, hy, rfl⟩ := Option.map_eq_some_iff.1 hstep
      have hup := toNat_of_up? hy
      have hupper : y.toNat ≤ w.height.toNat := by
        dsimp only at hside
        omega
      have hdown := down?_fromAbove hy hyl hupper
      exact Option.map_eq_some_iff.2 ⟨_, hdown, rfl⟩
  | south =>
      obtain ⟨y, hy, rfl⟩ := Option.map_eq_some_iff.1 hstep
      have hdown := toNat_of_down? hy
      have hback := down?_fromAbove (up?_of_down? hy) (by dsimp only at hside; omega) hyu
      exact Option.map_eq_some_iff.2 ⟨_, up?_of_down? hback, rfl⟩
  | east | west =>
      obtain ⟨x, hx, rfl⟩ := Option.map_eq_some_iff.1 hstep
      exact Option.map_eq_some_iff.2 ⟨x, hx, rfl⟩

theorem walled_rotated (w : World) (p q : Position) (d : Direction) :
    w.rotated.walled (p.rotated w.height) d.turnLeft (q.rotated w.height) = w.walled p d q := by
  have hwall (wall : Wall) (cell : Position) (side : Direction) :
      wall.rotated w.height = ⟨cell.rotated w.height, side.turnLeft⟩ ↔ wall = ⟨cell, side⟩ := by
    obtain ⟨cell', side'⟩ := wall
    rw [Wall.rotated, Wall.mk.injEq, Wall.mk.injEq, Position.rotated_inj, Direction.turnLeft_inj]
  have hopposite : d.turnLeft.opposite = d.opposite.turnLeft := rfl
  unfold walled rotated
  rw [List.any_map, hopposite]
  simp only [Function.comp_def, hwall]

/-- The way out of a cell inside the grid is blocked as the way out of the turned cell to the left of it is. -/
theorem isBlocked_rotated (hp : w.inBounds p = true) (d : Direction) :
    w.rotated.isBlocked (p.rotated w.height) d.turnLeft = w.isBlocked p d := by
  unfold isBlocked
  rw [atBorder_rotated hp]
  cases hborder : w.atBorder p d with
  | true => rfl
  | false =>
      obtain ⟨q, hq⟩ := exists_step?_of_not_atBorder hborder
      rw [step?_rotated hp hborder hq, hq]
      exact walled_rotated w p q d

end World

/-! ### Runs -/

/-- The error with the place that it names turned along. -/
def RunError.rotated (height : UInt32) : RunError → RunError
  | .movementBlocked pose => .movementBlocked (pose.rotated height)
  | .noBeeperHere cell => .noBeeperHere (cell.rotated height)
  | error => error

/-- Worlds after a quarter turn; their height is that of the grid all along a run. -/
def View.rotation (height : UInt32) : View := ⟨World.rotated, RunError.rotated height⟩

/-- Whether a condition is about the compass. -/
def Condition.isCompass : Condition → Bool
  | .facing _ | .notFacing _ => true
  | _ => false

structure World.Rotates (height : UInt32) (w : World) : Prop where
  height : w.height = height
  inBounds : w.inBounds w.agent.cell = true

theorem World.Rotates.apply {height : UInt32} {w w' : World} {action : Command} (h : w.Rotates height)
    (haction : action.apply w = .ok w') : w'.Rotates height := by
  have hmap := (OnMap.refl w).apply haction
  exact ⟨hmap.height.trans h.height, hmap.inBounds h.inBounds⟩

theorem View.apply_rotation {height : UInt32} {w : World} (hw : w.Rotates height) (action : Command) :
    action.apply w.rotated = (View.rotation height).applied (action.apply w) := by
  obtain ⟨rfl, hcell⟩ := hw
  have hbeepers : w.rotated.beepersAt w.rotated.agent.cell = w.beepersAt w.agent.cell :=
    w.beepersAt_rotated w.agent.cell
  cases action with
  | move =>
      have hfront : w.rotated.isBlocked w.rotated.agent.cell w.rotated.agent.facing =
          w.isBlocked w.agent.cell w.agent.facing := World.isBlocked_rotated hcell w.agent.facing
      show Command.moved w.rotated = (View.rotation w.height).applied (Command.moved w)
      unfold Command.moved
      rw [hfront]
      cases hblocked : w.isBlocked w.agent.cell w.agent.facing with
      | true => rfl
      | false =>
          have hborder := World.not_atBorder_of_not_isBlocked hblocked
          obtain ⟨q, hq⟩ := World.exists_step?_of_not_atBorder hborder
          have hstep : w.rotated.agent.cell.step? w.rotated.agent.facing = some (q.rotated w.height) :=
            World.step?_rotated hcell hborder hq
          rw [hq, hstep]
          rfl
  | turnLeft => rfl
  | pickBeeper =>
      show Command.picked w.rotated = (View.rotation w.height).applied (Command.picked w)
      unfold Command.picked World.removeBeeper? Layout.remove?
      change w.rotated.beepers.count w.rotated.agent.cell = w.beepers.count w.agent.cell at hbeepers
      rw [hbeepers]
      cases down? (w.beepers.count w.agent.cell) with
      | none => rfl
      | some count =>
          exact congrArg Except.ok (w.rotated_set_beepers w.agent.cell count w.bag.give).symm
  | putBeeper =>
      show Command.put w.rotated = (View.rotation w.height).applied (Command.put w)
      unfold Command.put
      change w.rotated.beepers.count w.rotated.agent.cell = w.beepers.count w.agent.cell at hbeepers
      have hbag : w.rotated.bag = w.bag := rfl
      rw [hbag]
      cases w.bag.take? with
      | none => rfl
      | some bag =>
          dsimp only [World.addBeeper, Layout.add]
          rw [hbeepers]
          exact congrArg Except.ok
            (w.rotated_set_beepers w.agent.cell (upOrStay (w.beepers.count w.agent.cell)) bag).symm

theorem View.faithful_rotation (height : UInt32) :
    (View.rotation height).Faithful (·.Rotates height) (·.isCompass = false) where
  holds w c hw hc := by
    have hblocked (d : Direction) := World.isBlocked_rotated hw.inBounds d
    have hclear (d : Direction) : w.rotated.isClear (w.agent.cell.rotated w.height) d.turnLeft =
        w.isClear w.agent.cell d := congrArg (!·) (hblocked d)
    have hbeepers := w.beepersAt_rotated w.agent.cell
    cases c with
    | frontIsClear | leftIsClear | rightIsClear => exact hclear _
    | frontIsBlocked | leftIsBlocked | rightIsBlocked => exact hblocked _
    | beepersPresent => exact congrArg (· != 0) hbeepers
    | noBeepersPresent => exact congrArg (· == 0) hbeepers
    | beepersInBag | noBeepersInBag => rfl
    | facing | notFacing => cases hc
  apply _ action hw := View.apply_rotation hw action
  keeps _ _ _ hw haction := hw.apply haction
  error e he := by
    cases e with
    | movementBlocked | noBeeperHere => cases he
    | _ => rfl

/-- The names of the conditions that are about the compass. -/
def Condition.compassNames : List String := (all.filter isCompass).map name

/-- Whether a statement asks for the compass. -/
def Statement.asksCompass : Statement → Bool
  | .whileLoop condition | .ifBranch condition | .elifBranch condition =>
      Condition.compassNames.contains condition
  | _ => false

theorem Condition.named_of_not_compass {name : String} (h : compassNames.contains name = false) :
    Named (·.isCompass = false) name := by
  intro c hc
  have hname : c.name = name := by simpa using List.find?_some hc
  cases hcompass : c.isCompass with
  | false => rfl
  | true =>
      have hmem : name ∈ compassNames :=
        List.mem_map.2 ⟨c, List.mem_filter.2 ⟨List.mem_of_find?_eq_some hc, hcompass⟩, hname⟩
      rw [List.contains_iff_mem.2 hmem] at h
      cases h

theorem Line.asksCompass_of_condition? {l : Line} {condition : String} (h : l.condition? = some condition) :
    l.statement.asksCompass = Condition.compassNames.contains condition := by
  obtain ⟨number, margin?, statement⟩ := l
  cases statement with
  | whileLoop | ifBranch | elifBranch =>
      cases h
      rfl
  | _ => cases h

/-- A script none of whose procedures asks for the compass has code that does not. -/
theorem Program.asksFor_of_not_asksCompass {p : Program}
    (h : ∀ name q, p.find? name = some q → ∀ t ∈ q.body.lines, (Statement.read t).asksCompass = false) :
    (Code.ofProgram p).AsksFor (·.isCompass = false) := by
  rintro l ⟨name, body, hbody, hl⟩ condition hcondition
  rw [Code.body?_ofProgram] at hbody
  obtain ⟨q, hq, rfl⟩ := Option.map_eq_some_iff.1 hbody
  obtain ⟨i, hi, rfl⟩ := List.mem_mapIdx.1 hl
  have hline := h name q hq q.body.lines[i] (List.getElem_mem hi)
  apply Condition.named_of_not_compass
  rw [← Line.asksCompass_of_condition? hcondition]
  exact hline

/-- Turning the world turns the run. From a world after a quarter turn, a script that does not ask for the
compass comes to the same as from the world itself, with the same steps and at the same line; every world
that the run shows is turned, and so is the place that an error names. -/
theorem runScript_rotated (w : World) (hw : w.inBounds w.agent.cell = true) (script : String)
    (hscript : ∀ name q, (Program.parse script).find? name = some q →
      ∀ t ∈ q.body.lines, (Statement.read t).asksCompass = false) (limit : Nat) :
    runScript script w.rotated limit = (View.rotation w.height).result (runScript script w limit) :=
  runScript_view (View.faithful_rotation w.height) (Program.asksFor_of_not_asksCompass hscript) ⟨rfl, hw⟩
    limit

theorem runScript_rotated_walk :
    let w := World.addWall (.ofSize 3 2) ⟨⟨3, 1⟩, .north⟩
    let script := "def main():\n  while front_is_clear():\n    move()\n  turn_left()\n  move()"
    w.inBounds w.agent.cell = true ∧ w.rotated.agent = ⟨⟨2, 1⟩, .north⟩ ∧
      w.rotated.walls = [⟨⟨2, 3⟩, .west⟩] ∧
      runScript script w.rotated 9 = (View.rotation 2).result (runScript script w 9) := by
  intro w script
  have hlines : ∀ q ∈ (Program.parse script).procedures,
      ∀ t ∈ q.body.lines, (Statement.read t).asksCompass = false := by
    decide +kernel
  have hscript : ∀ name q, (Program.parse script).find? name = some q →
      ∀ t ∈ q.body.lines, (Statement.read t).asksCompass = false := fun _ q hq =>
    hlines q (List.mem_filter.1 (List.mem_of_getLast? hq)).1
  exact ⟨by decide, by decide, by decide, runScript_rotated w (by decide) script hscript 9⟩

end GridRobot
