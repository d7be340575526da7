import GridRobot.Proofs.Run.View
import GridRobot.Proofs.World.Edge

/-!
# Walls are edges

A wall is recorded on one side of an edge and blocks it from both. What a run can find out about walls is
which edges are blocked and nothing else, so two lists of walls that block the same edges give the same
run, world by world up to the list itself (`runScript_walls`). Lists that record the same edges in another
way do block the same ones: the order and the number of the records do not matter, nor does the side of
the edge that a record is made on, since a step and the step back lead to and fro between its two cells.
-/

namespace GridRobot

/-! ### The step back -/

theorem down?_of_up? {n m : UInt32} (h : up? n = some m) : down? m = some n := by
  have hnat := toNat_of_up? h
  obtain ⟨k, hk⟩ := exists_down? (n := m) (by omega)
  have hback := toNat_of_down? hk
  rw [hk, Option.some.injEq, ← UInt32.toNat_inj]
  omega

theorem up?_of_down? {n m : UInt32} (h : down? n = some m) : up? m = some n := by
  have hnat := toNat_of_down? h
  obtain ⟨k, hk⟩ := exists_up? (n := m) (m := n) (by omega)
  have hback := toNat_of_up? hk
  rw [hk, Option.some.injEq, ← UInt32.toNat_inj]
  omega

theorem Position.step?_opposite {p q : Position} {d : Direction} (h : p.step? d = some q) :
    q.step? d.opposite = some p := by
  cases d with
  | north =>
      obtain ⟨y, hy, rfl⟩ := Option.map_eq_some_iff.1 h
      exact Option.map_eq_some_iff.2 ⟨p.y, down?_of_up? hy, rfl⟩
  | east =>
      obtain ⟨x, hx, rfl⟩ := Option.map_eq_some_iff.1 h
      exact Option.map_eq_some_iff.2 ⟨p.x, down?_of_up? hx, rfl⟩
  | south =>
      obtain ⟨y, hy, rfl⟩ := Option.map_eq_some_iff.1 h
      exact Option.map_eq_some_iff.2 ⟨p.y, up?_of_down? hy, rfl⟩
  | west =>
      obtain ⟨x, hx, rfl⟩ := Option.map_eq_some_iff.1 h
      exact Option.map_eq_some_iff.2 ⟨p.x, up?_of_down? hx, rfl⟩

/-! ### Records of an edge -/

namespace Wall

/-- Whether a wall is a record of the edge between a cell and its neighbour in a direction. -/
def Records (wall : Wall) (p : Position) (d : Direction) (neighbour : Position) : Prop :=
  wall = ⟨p, d⟩ ∨ wall = ⟨neighbour, d.opposite⟩

/-- The records on the two sides of an edge are records of the same edges. -/
theorem records_across {p q cell neighbour : Position} {d side : Direction} (hstep : p.step? d = some q)
    (hacross : cell.step? side = some neighbour) :
    Records ⟨cell, side⟩ p d q ↔ Records ⟨neighbour, side.opposite⟩ p d q := by
  have hback := Position.step?_opposite hstep
  have hacrossBack := Position.step?_opposite hacross
  constructor
  · rintro (h | h)
    · cases h
      rw [hstep, Option.some.injEq] at hacross
      exact .inr (by rw [hacross])
    · cases h
      rw [hback, Option.some.injEq] at hacross
      exact .inl (by rw [hacross, Direction.opposite_opposite])
  · rintro (h | h)
    · obtain ⟨rfl, rfl⟩ := Wall.mk.inj h
      rw [hstep, Option.some.injEq] at hacrossBack
      exact .inr (by rw [hacrossBack, Direction.opposite_opposite])
    · obtain ⟨rfl, hside⟩ := Wall.mk.inj h
      have hd : side = d := by
        rw [← Direction.opposite_opposite side, hside, Direction.opposite_opposite]
      subst hd
      rw [hback, Option.some.injEq] at hacrossBack
      exact .inl (by rw [hacrossBack])

/-- Another way to record the same edges. -/
inductive Restated : List Wall → List Wall → Prop where
  | permuted {walls walls' : List Wall} (h : walls.Perm walls') : Restated walls walls'
  | repeated {wall : Wall} {before behind : List Wall} (h : wall ∈ before ++ behind) :
      Restated (before ++ behind) (before ++ wall :: behind)
  | across {cell neighbour : Position} {side : Direction} {before behind : List Wall}
      (h : cell.step? side = some neighbour) :
      Restated (before ++ ⟨cell, side⟩ :: behind) (before ++ ⟨neighbour, side.opposite⟩ :: behind)

theorem Restated.exists_records {walls walls' : List Wall} (h : Restated walls walls')
    {p q : Position} {d : Direction} (hstep : p.step? d = some q) :
    (∃ wall ∈ walls', wall.Records p d q) ↔ ∃ wall ∈ walls, wall.Records p d q := by
  cases h with
  | permuted h => simp only [h.mem_iff]
  | @repeated wall before behind h =>
      have hmem : ∀ wall', wall' ∈ before ++ wall :: behind ↔ wall' ∈ before ++ behind := by
        intro wall'
        rw [List.mem_append, List.mem_cons, or_left_comm, ← List.mem_append]
        exact or_iff_right_of_imp fun heq => heq ▸ h
      simp only [hmem]
  | across h =>
      have hrecords := records_across hstep h
      simp only [List.mem_append, List.mem_cons, or_and_right, exists_or, exists_eq_left, hrecords]

end Wall

namespace World

theorem walled_iff {w : World} {p q : Position} {d : Direction} :
    w.walled p d q = true ↔ ∃ wall ∈ w.walls, wall.Records p d q := by
  simp only [walled, List.any_eq_true, Bool.or_eq_true, decide_eq_true_eq, Wall.Records]

/-- Whether another list of walls blocks the same edges. -/
def BlocksAlike (w : World) (walls : List Wall) : Prop :=
  ∀ p d, isBlocked { w with walls } p d = w.isBlocked p d

theorem blocksAlike_of_restated {w : World} {walls : List Wall} (h : Wall.Restated w.walls walls) :
    w.BlocksAlike walls := by
  intro p d
  have hborder : atBorder { w with walls } p d = w.atBorder p d := by cases d <;> rfl
  unfold isBlocked
  rw [hborder]
  cases hstep : p.step? d with
  | none => rfl
  | some q =>
      have hwalled : walled { w with walls } p d q = w.walled p d q := by
        rw [Bool.eq_iff_iff, walled_iff, walled_iff]
        exact h.exists_records hstep
      exact congrArg (w.atBorder p d || ·) hwalled

end World

/-! ### Runs -/

/-- Every world with the given list of walls in place of its own. -/
def View.walls (walls : List Wall) : View := ⟨fun w => { w with walls }, id⟩

theorem View.faithful_walls (walls : List Wall) :
    (View.walls walls).Faithful (·.BlocksAlike walls) fun _ => True where
  holds w c hw _ := by
    have hclear : ∀ p d, World.isClear { w with walls } p d = w.isClear p d := fun p d =>
      congrArg (!·) (hw p d)
    cases c with
    | frontIsClear | leftIsClear | rightIsClear => exact hclear _ _
    | frontIsBlocked | leftIsBlocked | rightIsBlocked => exact hw _ _
    | beepersPresent | noBeepersPresent | beepersInBag | noBeepersInBag | facing | notFacing => rfl
  apply w action hw := by
    cases action with
    | move =>
        have hfront := hw w.agent.cell w.agent.facing
        show Command.moved { w with walls } = View.applied _ (Command.moved w)
        unfold Command.moved
        simp only [hfront]
        split
        · rfl
        · cases w.agent.cell.step? w.agent.facing <;> rfl
    | turnLeft => rfl
    | pickBeeper =>
        show Command.picked { w with walls } = View.applied _ (Command.picked w)
        unfold Command.picked World.removeBeeper?
        dsimp only
        cases w.beepers.remove? w.agent.cell <;> rfl
    | putBeeper =>
        show Command.put { w with walls } = View.applied _ (Command.put w)
        unfold Command.put
        dsimp only
        cases w.bag.take? <;> rfl
  keeps w w' action hw haction := by
    rcases Command.apply_ok haction with ⟨-, -, cell, -, rfl⟩ | ⟨-, rfl⟩ | ⟨-, count, -, rfl⟩ |
      ⟨-, bag, -, rfl⟩
    all_goals exact hw
  error _ _ := rfl

theorem runScript_walls {w : World} {walls : List Wall} (hw : w.BlocksAlike walls) (script : String)
    (limit : Nat) :
    runScript script { w with walls } limit = (View.walls walls).result (runScript script w limit) :=
  runScript_view (View.faithful_walls walls) (fun _ _ _ _ _ _ => trivial) hw limit

/-- Only the set of blocked edges matters for a run, not how walls are recorded: with other walls that
block the same edges a run comes to the same, and every world that it shows differs in its walls at
most. Walls that are recorded in another order, more than once or on the other side of their edge block
the same edges, and so have the same run. -/
theorem runScript_sees_blocked_edges (w : World) (walls : List Wall) (script : String) (limit : Nat) :
    ((∀ p d, World.isBlocked { w with walls } p d = w.isBlocked p d) →
      runScript script { w with walls } limit =
        (View.walls walls).result (runScript script w limit)) ∧
    (Wall.Restated w.walls walls →
      (∀ p d, World.isBlocked { w with walls } p d = w.isBlocked p d) ∧
        runScript script { w with walls } limit =
          (View.walls walls).result (runScript script w limit)) := by
  refine ⟨fun hw => runScript_walls hw script limit, fun h => ?_⟩
  have hw := World.blocksAlike_of_restated h
  exact ⟨hw, runScript_walls hw script limit⟩

theorem runScript_sees_blocked_edges_across :
    let w := World.addWall (.ofSize 3 1) ⟨⟨1, 1⟩, .east⟩
    Wall.Restated w.walls [⟨⟨2, 1⟩, .west⟩] ∧
      runScript "def main():move()" { w with walls := [⟨⟨2, 1⟩, .west⟩] } 4 =
        (View.walls [⟨⟨2, 1⟩, .west⟩]).result (runScript "def main():move()" w 4) := by
  intro w
  have hacross : Wall.Restated w.walls [⟨⟨2, 1⟩, .west⟩] :=
    @Wall.Restated.across ⟨1, 1⟩ ⟨2, 1⟩ .east [] [] rfl
  obtain ⟨hsame, hrestated⟩ :=
    runScript_sees_blocked_edges w [⟨⟨2, 1⟩, .west⟩] "def main():move()" 4
  exact ⟨hacross, hsame (hrestated hacross).1⟩

end GridRobot
