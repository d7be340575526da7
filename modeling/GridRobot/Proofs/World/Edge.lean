import GridRobot.Command

/-!
# Steps and edges in numbers

Coordinates are 32-bit words, and a step may leave them. Here the step of a cell and the border of a grid
are told in numbers: a step changes the coordinates by the unit vector of its direction, and away from
the border there is always a step. `Command.apply_ok` lists all that a command can do to a world, so that
the rest of the theory need not open the four commands.
-/

namespace GridRobot

theorem toNat_of_up? {n m : UInt32} (h : up? n = some m) : m.toNat = n.toNat + 1 := by
  unfold up? at h
  split at h
  · next hlt =>
      cases h
      rw [UInt32.toNat_add]
      exact Nat.mod_eq_of_lt hlt
  · cases h

theorem toNat_of_down? {n m : UInt32} (h : down? n = some m) : m.toNat + 1 = n.toNat := by
  unfold down? at h
  split at h
  · cases h
  · next hne =>
      cases h
      have hpos : n.toNat ≠ 0 := fun hzero => hne (UInt32.toNat_inj.1 hzero)
      have hle : 1 ≤ n := by
        rw [UInt32.le_iff_toNat_le]
        show 1 ≤ n.toNat
        omega
      have hsub : (n - 1).toNat = n.toNat - 1 := UInt32.toNat_sub_of_le n 1 hle
      omega

theorem exists_up? {n m : UInt32} (h : n.toNat < m.toNat) : ∃ k, up? n = some k := by
  have hm : m.toNat < UInt32.size := m.toNat_lt_size
  exact ⟨n + 1, if_pos (by omega)⟩

theorem exists_down? {n : UInt32} (h : 0 < n.toNat) : ∃ k, down? n = some k := by
  refine ⟨n - 1, if_neg ?_⟩
  intro hzero
  rw [hzero] at h
  exact Nat.lt_irrefl 0 h

namespace Position

theorem toNat_of_step? {p q : Position} {d : Direction} (h : p.step? d = some q) :
    (q.x.toNat : Int) = p.x.toNat + d.delta.1 ∧ (q.y.toNat : Int) = p.y.toNat + d.delta.2 := by
  cases d with
  | north =>
      obtain ⟨y, hy, rfl⟩ := Option.map_eq_some_iff.1 h
      have := toNat_of_up? hy
      simp only [Direction.delta]
      omega
  | east =>
      obtain ⟨x, hx, rfl⟩ := Option.map_eq_some_iff.1 h
      have := toNat_of_up? hx
      simp only [Direction.delta]
      omega
  | south =>
      obtain ⟨y, hy, rfl⟩ := Option.map_eq_some_iff.1 h
      have := toNat_of_down? hy
      simp only [Direction.delta]
      omega
  | west =>
      obtain ⟨x, hx, rfl⟩ := Option.map_eq_some_iff.1 h
      have := toNat_of_down? hx
      simp only [Direction.delta]
      omega

end Position

namespace World

/-- What it means that a cell lies away from the border in a direction. -/
theorem of_not_atBorder {w : World} {p : Position} {d : Direction} (h : w.atBorder p d = false) :
    match d with
    | .north => p.y.toNat < w.height.toNat
    | .east => p.x.toNat < w.width.toNat
    | .south => 1 < p.y.toNat
    | .west => 1 < p.x.toNat := by
  cases d with
  | north | east | south | west =>
      simp only [atBorder, decide_eq_false_iff_not, UInt32.le_iff_toNat_le] at h
      exact Nat.lt_of_not_le h

/-- Away from the border no step leaves the words. -/
theorem exists_step?_of_not_atBorder {w : World} {p : Position} {d : Direction}
    (h : w.atBorder p d = false) : ∃ q, p.step? d = some q := by
  have hside := of_not_atBorder h
  cases d with
  | north =>
      obtain ⟨y, hy⟩ := exists_up? hside
      exact ⟨⟨p.x, y⟩, Option.map_eq_some_iff.2 ⟨y, hy, rfl⟩⟩
  | east =>
      obtain ⟨x, hx⟩ := exists_up? hside
      exact ⟨⟨x, p.y⟩, Option.map_eq_some_iff.2 ⟨x, hx, rfl⟩⟩
  | south =>
      obtain ⟨y, hy⟩ := exists_down? (Nat.lt_of_succ_lt hside)
      exact ⟨⟨p.x, y⟩, Option.map_eq_some_iff.2 ⟨y, hy, rfl⟩⟩
  | west =>
      obtain ⟨x, hx⟩ := exists_down? (Nat.lt_of_succ_lt hside)
      exact ⟨⟨x, p.y⟩, Option.map_eq_some_iff.2 ⟨x, hx, rfl⟩⟩

theorem not_atBorder_of_not_isBlocked {w : World} {p : Position} {d : Direction}
    (h : w.isBlocked p d = false) : w.atBorder p d = false := by
  unfold isBlocked at h
  exact (Bool.or_eq_false_iff.1 h).1

end World

namespace Command

/-- Where the way out of its cell is clear, the robot moves. -/
theorem exists_moved {w : World} (hclear : w.isBlocked w.agent.cell w.agent.facing = false) :
    ∃ cell, w.agent.cell.step? w.agent.facing = some cell ∧
      apply w .move = .ok { w with agent := { w.agent with cell } } := by
  have hborder := World.not_atBorder_of_not_isBlocked hclear
  obtain ⟨cell, hcell⟩ := World.exists_step?_of_not_atBorder hborder
  refine ⟨cell, hcell, ?_⟩
  rw [apply, moved, hclear, hcell]
  rfl

/-- All that a command can do to a world. -/
theorem apply_ok {w w' : World} {action : Command} (h : action.apply w = .ok w') :
    (action = .move ∧ w.isBlocked w.agent.cell w.agent.facing = false ∧
      ∃ cell, w.agent.cell.step? w.agent.facing = some cell ∧
        w' = { w with agent := { w.agent with cell } }) ∨
    (action = .turnLeft ∧ w' = { w with agent := { w.agent with facing := w.agent.facing.turnLeft } }) ∨
    (action = .pickBeeper ∧ ∃ count, down? (w.beepersAt w.agent.cell) = some count ∧
      w' = { w with beepers := w.beepers.set w.agent.cell count, bag := w.bag.give }) ∨
    (action = .putBeeper ∧ ∃ bag, w.bag.take? = some bag ∧
      w' = { w with beepers := w.beepers.add w.agent.cell, bag }) := by
  cases action with
  | move =>
      simp only [apply, moved] at h
      split at h
      · cases h
      · next hclear =>
          split at h
          · next cell hcell =>
              cases h
              exact .inl ⟨rfl, by simpa using hclear, cell, hcell, rfl⟩
          · cases h
  | turnLeft =>
      cases h
      exact .inr (.inl ⟨rfl, rfl⟩)
  | pickBeeper =>
      simp only [apply, picked] at h
      split at h
      · next picked hpicked =>
          cases h
          obtain ⟨beepers, hbeepers, rfl⟩ := Option.map_eq_some_iff.1 hpicked
          obtain ⟨count, hcount, rfl⟩ := Option.map_eq_some_iff.1 hbeepers
          exact .inr (.inr (.inl ⟨rfl, count, hcount, rfl⟩))
      · cases h
  | putBeeper =>
      simp only [apply, put] at h
      split at h
      · next bag hbag =>
          cases h
          exact .inr (.inr (.inr ⟨rfl, bag, hbag, rfl⟩))
      · cases h

end Command

end GridRobot
