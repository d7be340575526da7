import GridRobot.Condition
import GridRobot.Proofs.World.Edge

/-!
# Guards and commands

A script asks before it acts: is the front clear, are there beepers here, are there any in the bag. The
answers are worked out apart from the commands that they are meant to guard. A condition counts the beepers
of a cell while the command looks for a pile, and the way to the left is looked at from where the robot
stands while the command moves after a turn. They agree nevertheless: a condition is true exactly if the
command that it guards succeeds.

A command that fails leaves the world as it was. `Command.apply` has no world to give back then, so this
is told of `Command.act`, which carries a command out in place, one write after another, and stops where
it fails. The two do the same (`Command.act_eq`).
-/

namespace GridRobot

/-! ### Commands in place -/

namespace World

/-- Takes a beeper off a cell in place, and says whether the cell had a pile. A pile of more than one is
counted down, and a pile of one goes. -/
def takeOff (w : World) (cell : Position) : Bool × World :=
  match w.beepers.piles.find? (·.cell = cell) with
  | some p => (true, w.setBeepers cell (if 1 < p.count then p.count - 1 else 0))
  | none => (false, w)

/-- Takes a beeper out of the bag in place, and says whether the bag held one. -/
def takeOut (w : World) : Bool × World :=
  match w.bag with
  | .finite n => if n = 0 then (false, w) else (true, { w with bag := .finite (n - 1) })
  | .unbounded => (true, w)

theorem takeOff_eq (w : World) (cell : Position) :
    w.takeOff cell = (w.removeBeeper? cell).elim (false, w) (true, ·) := by
  unfold takeOff removeBeeper? Layout.remove?
  split
  · next p hfind =>
      have hcount : w.beepers.count cell = p.count := by rw [Layout.count, Pile.countIn, hfind]
      have hp : p.count ≠ 0 := w.beepers.positive p (List.mem_of_find?_eq_some hfind)
      have hdown : down? (w.beepers.count cell) = some (p.count - 1) := by
        rw [hcount]
        exact if_neg hp
      have hless : (if 1 < p.count then p.count - 1 else 0) = p.count - 1 := by grind
      rw [hdown, hless]
      rfl
  · next hfind =>
      have hcount : w.beepers.count cell = 0 := by rw [Layout.count, Pile.countIn, hfind]
      rw [hcount]
      rfl

theorem takeOut_eq (w : World) :
    w.takeOut = w.bag.take?.elim (false, w) fun bag => (true, { w with bag }) := by
  unfold takeOut
  split
  · next n hbag =>
      rw [hbag]
      by_cases hn : n = 0
      · rw [if_pos hn, hn]
        rfl
      · rw [if_neg hn, Bag.take?, down?, if_neg hn]
        rfl
  · next hbag =>
      rw [hbag, Bag.take?, Option.elim_some, ← hbag]

end World

namespace Command

/-- A command carried out in place. -/
def act : Command → EStateM RunError World Unit
  | .move => do
      let pose := (← get).agent
      if (← get).isBlocked pose.cell pose.facing then throw (.movementBlocked pose)
      else
        match pose.cell.step? pose.facing with
        | some next =>
            modify fun w => { w with agent.cell.x := next.x }
            modify fun w => { w with agent.cell.y := next.y }
        | none => throw (.movementBlocked pose)
  | .turnLeft => modify fun w => { w with agent.facing := w.agent.facing.turnLeft }
  | .pickBeeper => do
      let cell := (← get).agent.cell
      if ← modifyGet (·.takeOff cell) then modify fun w => { w with bag := w.bag.give }
      else throw (.noBeeperHere cell)
  | .putBeeper => do
      let cell := (← get).agent.cell
      if ← modifyGet World.takeOut then modify (·.addBeeper cell)
      else throw .bagEmpty

/-- What is left where a command was to be carried out in a world. -/
def left (w : World) : Except RunError World → EStateM.Result RunError World Unit
  | .ok w' => .ok () w'
  | .error e => .error e w

theorem act_eq (w : World) (action : Command) : action.act.run w = left w (action.apply w) := by
  cases action with
  | move =>
      rw [apply, moved]
      cases hstep : w.agent.cell.step? w.agent.facing with
      | none => simp [act, hstep, left]
      | some cell =>
          cases hblocked : w.isBlocked w.agent.cell w.agent.facing with
          | true => simp [act, hblocked, left]
          | false => simp [act, hblocked, hstep, left]
  | turnLeft => rfl
  | pickBeeper =>
      have htake := w.takeOff_eq w.agent.cell
      rw [apply, picked]
      cases hremove : w.removeBeeper? w.agent.cell with
      | none => simp [act, htake, hremove, left]
      | some w' => simp [act, htake, hremove, left]
  | putBeeper =>
      have htake := w.takeOut_eq
      rw [apply, put]
      cases hbag : w.bag.take? with
      | none => simp [act, htake, hbag, left]
      | some bag => simp [act, htake, hbag, left]

theorem act_eq_ok_iff {w w' : World} {action : Command} :
    action.act.run w = .ok () w' ↔ action.apply w = .ok w' := by
  rw [act_eq]
  cases action.apply w <;> simp [left]

/-- A command that fails leaves the world as it was. -/
theorem act_eq_error_iff {w w' : World} {action : Command} {e : RunError} :
    action.act.run w = .error e w' ↔ action.apply w = .error e ∧ w' = w := by
  rw [act_eq]
  cases action.apply w <;> simp [left, eq_comm]

end Command

/-! ### Commands and what guards them -/

/-- The world after a left turn. -/
def World.turned (w : World) : World :=
  { w with agent := { w.agent with facing := w.agent.facing.turnLeft } }

namespace Command

theorem foldlM_turnLeft (w : World) (actions : List Command) :
    (turnLeft :: actions).foldlM apply w = actions.foldlM apply w.turned := rfl

theorem foldlM_move (w : World) : [move].foldlM apply w = apply w .move := by
  rw [List.foldlM_cons]
  exact bind_pure _

theorem exists_moved_iff (w : World) :
    (∃ w', apply w .move = .ok w') ↔ w.isClear w.agent.cell w.agent.facing = true := by
  have hclear : w.isClear w.agent.cell w.agent.facing = true ↔
      w.isBlocked w.agent.cell w.agent.facing = false := by
    rw [World.isClear, Bool.not_eq_true']
  rw [hclear]
  constructor
  · rintro ⟨w', hmove⟩
    rcases apply_ok hmove with ⟨-, hfront, -⟩ | ⟨h, -⟩ | ⟨h, -⟩ | ⟨h, -⟩
    · exact hfront
    all_goals cases h
  · intro hfront
    obtain ⟨cell, -, hmove⟩ := exists_moved hfront
    exact ⟨_, hmove⟩

theorem exists_picked_iff (w : World) :
    (∃ w', apply w .pickBeeper = .ok w') ↔ w.beepersAt w.agent.cell ≠ 0 := by
  constructor
  · rintro ⟨w', hpick⟩ hzero
    rcases apply_ok hpick with ⟨h, -⟩ | ⟨h, -⟩ | ⟨-, count, hcount, -⟩ | ⟨h, -⟩
    · cases h
    · cases h
    · rw [hzero] at hcount
      cases hcount
    · cases h
  · intro hcount
    have hdown : down? (w.beepers.count w.agent.cell) = some (w.beepersAt w.agent.cell - 1) := if_neg hcount
    rw [apply, picked, World.removeBeeper?, Layout.remove?, hdown]
    exact ⟨_, rfl⟩

theorem exists_put_iff (w : World) : (∃ w', apply w .putBeeper = .ok w') ↔ w.bag.hasBeepers = true := by
  rw [← Bag.take?_isSome, apply, put]
  cases w.bag.take? <;> simp

end Command

/-- Guards predict commands. Whether the front is clear, whether there are beepers here and whether there
are any in the bag is whether the robot can move, pick one and put one; and the ways to the left and to the
right are clear if it can move after one left turn and after three. A command carried out in place does what
`Command.apply` says, and where it fails it leaves the world exactly as it was. -/
theorem guards_predict_commands (w : World) :
    (Condition.frontIsClear.holds w = true ↔ ∃ w', Command.move.apply w = .ok w') ∧
    (Condition.beepersPresent.holds w = true ↔ ∃ w', Command.pickBeeper.apply w = .ok w') ∧
    (Condition.beepersInBag.holds w = true ↔ ∃ w', Command.putBeeper.apply w = .ok w') ∧
    (Condition.leftIsClear.holds w = true ↔
      ∃ w', [Command.turnLeft, .move].foldlM Command.apply w = .ok w') ∧
    (Condition.rightIsClear.holds w = true ↔
      ∃ w', [Command.turnLeft, .turnLeft, .turnLeft, .move].foldlM Command.apply w = .ok w') ∧
    ∀ (action : Command) (w' : World),
      (action.act.run w = .ok () w' ↔ action.apply w = .ok w') ∧
      ∀ e, action.act.run w = .error e w' ↔ action.apply w = .error e ∧ w' = w := by
  have hbeepers : Condition.beepersPresent.holds w = true ↔ w.beepersAt w.agent.cell ≠ 0 := bne_iff_ne
  refine ⟨(Command.exists_moved_iff w).symm, hbeepers.trans (Command.exists_picked_iff w).symm,
    (Command.exists_put_iff w).symm, ?_, ?_, ?_⟩
  · rw [Command.foldlM_turnLeft, Command.foldlM_move]
    exact (Command.exists_moved_iff w.turned).symm
  · rw [Command.foldlM_turnLeft, Command.foldlM_turnLeft, Command.foldlM_turnLeft, Command.foldlM_move]
    exact (Command.exists_moved_iff w.turned.turned.turned).symm
  · intro action w'
    exact ⟨Command.act_eq_ok_iff, fun e => Command.act_eq_error_iff⟩

end GridRobot
