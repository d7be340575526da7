import GridRobot.Proofs.Run.Grid
import GridRobot.Proofs.World.Layout

/-!
# Runs keep all beepers

A beeper is on a cell or in the bag, and a command takes it from one to the other. Both are counted in
words that stay at the greatest one instead of growing past it, so a beeper could get lost; it does not,
as long as all beepers together fit into a word. That bound is kept along with the number itself: a pile or
a bag that is about to grow has room, because the beeper that it gets is counted elsewhere already
(`World.stock?_of_apply`). What the piles of a run come to can therefore be read off its trace.
-/

namespace GridRobot

theorem toNat_upOrStay {n : UInt32} (h : n.toNat + 1 < UInt32.size) :
    (upOrStay n).toNat = n.toNat + 1 := by
  have hup : up? n = some (n + 1) := if_pos h
  rw [upOrStay, hup, Option.getD_some, toNat_of_up? hup]

namespace World

/-- All beepers of a world, on its cells and in the bag; none where the bag has no end. -/
def stock? (w : World) : Option Nat := w.bag.count?.map fun n => w.beepers.total + n.toNat

theorem stock?_eq_some_iff {w : World} {stock : Nat} :
    w.stock? = some stock ↔ ∃ n, w.bag = .finite n ∧ w.beepers.total + n.toNat = stock := by
  unfold stock?
  cases w.bag with
  | finite n => simp [Bag.count?]
  | unbounded => simp [Bag.count?]

end World

/-- Whether an entry is of a command that was carried out on a cell. -/
def Entry.isAt (action : Command) (cell : Position) (e : Entry) : Bool :=
  e.action == action && e.world.agent.cell == cell

/-- How often a command was carried out on a cell. -/
def Entry.times (action : Command) (cell : Position) (entries : List Entry) : Nat :=
  entries.countP (isAt action cell)

theorem Entry.times_append (action : Command) (cell : Position) (entries : List Entry) (e : Entry) :
    times action cell (entries ++ [e]) =
      times action cell entries + if e.isAt action cell then 1 else 0 := by
  rw [times, List.countP_append, List.countP_singleton, times]

namespace World

/-- A command takes no beeper away and adds none, as long as there are not too many to be counted. On each
cell it is a beeper put there that makes one more, and a beeper picked there that makes one less. -/
theorem stock?_of_apply {w w' : World} {action : Command} {stock : Nat} (hstock : w.stock? = some stock)
    (hfits : stock < UInt32.size) (haction : action.apply w = .ok w') :
    w'.stock? = some stock ∧ ∀ cell,
      (w'.beepersAt cell).toNat + (if Entry.isAt .pickBeeper cell ⟨action, w'⟩ then 1 else 0) =
        (w.beepersAt cell).toNat + (if Entry.isAt .putBeeper cell ⟨action, w'⟩ then 1 else 0) := by
  obtain ⟨n, hbag, hsum⟩ := stock?_eq_some_iff.1 hstock
  have hpile := w.beepers.count_le_total w.agent.cell
  rcases Command.apply_ok haction with ⟨rfl, -, cell, -, rfl⟩ | ⟨rfl, rfl⟩ | ⟨rfl, count, hcount, rfl⟩ |
    ⟨rfl, bag, htake, rfl⟩
  · exact ⟨hstock, fun cell => rfl⟩
  · exact ⟨hstock, fun cell => rfl⟩
  · have hless : count.toNat + 1 = (w.beepers.count w.agent.cell).toNat := toNat_of_down? hcount
    have htotal := w.beepers.total_set w.agent.cell count
    have hgive : (upOrStay n).toNat = n.toNat + 1 := toNat_upOrStay (by omega)
    refine ⟨stock?_eq_some_iff.2 ⟨upOrStay n, by rw [hbag]; rfl, ?_⟩, fun cell => ?_⟩
    · dsimp only
      omega
    · simp only [beepersAt, Layout.count_set, Entry.isAt]
      by_cases hcell : w.agent.cell = cell
      · subst hcell
        simpa using hless
      · simp [hcell]
  · rw [hbag] at htake
    obtain ⟨m, hm, rfl⟩ := Option.map_eq_some_iff.1 htake
    have hless : m.toNat + 1 = n.toNat := toNat_of_down? hm
    have htotal := w.beepers.total_set w.agent.cell (upOrStay (w.beepers.count w.agent.cell))
    have hmore : (upOrStay (w.beepers.count w.agent.cell)).toNat =
        (w.beepers.count w.agent.cell).toNat + 1 := toNat_upOrStay (by omega)
    refine ⟨stock?_eq_some_iff.2 ⟨m, rfl, ?_⟩, fun cell => ?_⟩
    · dsimp only [Layout.add]
      omega
    · simp only [beepersAt, Layout.add, Layout.count_set, Entry.isAt]
      by_cases hcell : w.agent.cell = cell
      · subst hcell
        simpa using hmore
      · simp [hcell]

theorem bag_of_apply {w w' : World} {action : Command} (hbag : w.bag = .unbounded)
    (haction : action.apply w = .ok w') : w'.bag = .unbounded := by
  rcases Command.apply_ok haction with ⟨-, -, cell, -, rfl⟩ | ⟨-, rfl⟩ | ⟨-, count, -, rfl⟩ |
    ⟨-, bag, htake, rfl⟩
  · exact hbag
  · exact hbag
  · show w.bag.give = .unbounded
    rw [hbag]
    rfl
  · rw [hbag] at htake
    exact (Option.some.inj htake).symm

end World

/-- The pile on a cell is the one that a run started with, and what the trace shows to have been put there
and picked there. -/
theorem beepersAt_of_runScript {world : World} {stock : Nat} (hstock : world.stock? = some stock)
    (hfits : stock < UInt32.size) (script : String) (limit : Nat) (cell : Position) :
    ((RunResult.reached (runScript script world limit)).world.beepersAt cell).toNat +
        Entry.times .pickBeeper cell (RunResult.reached (runScript script world limit)).trace =
      (world.beepersAt cell).toNat +
        Entry.times .putBeeper cell (RunResult.reached (runScript script world limit)).trace := by
  have hreached : (RunResult.reached (runScript script world limit)).world.stock? = some stock ∧
      ((RunResult.reached (runScript script world limit)).world.beepersAt cell).toNat +
          Entry.times .pickBeeper cell (RunResult.reached (runScript script world limit)).trace =
        (world.beepersAt cell).toNat +
          Entry.times .putBeeper cell (RunResult.reached (runScript script world limit)).trace := by
    apply runScript_induction
      (I := fun w entries => w.stock? = some stock ∧
        (w.beepersAt cell).toNat + Entry.times .pickBeeper cell entries =
          (world.beepersAt cell).toNat + Entry.times .putBeeper cell entries)
    · exact ⟨hstock, rfl⟩
    · intro w entries action w' ⟨hw, hcount⟩ haction
      obtain ⟨hw', hcells⟩ := World.stock?_of_apply hw hfits haction
      have hcell := hcells cell
      refine ⟨hw', ?_⟩
      rw [Entry.times_append, Entry.times_append]
      omega
  exact hreached.2

/-- Runs keep all beepers. If the bag is finite and all beepers together fit into a word, then every world
that a run shows has a finite bag and as many beepers on its cells and in the bag as the first one, and
on each cell the run leaves what was there, with the beepers put there and without those picked there.
A bag with no end stays one. -/
theorem runScript_conserves_beepers (script : String) (world : World) (limit : Nat) :
    (∀ n, world.bag = .finite n → world.beepers.total + n.toNat ≤ UInt32.size - 1 →
      (∀ w ∈ (RunResult.reached (runScript script world limit)).worlds,
        ∃ m, w.bag = .finite m ∧ w.beepers.total + m.toNat = world.beepers.total + n.toNat) ∧
      ∀ cell,
        ((RunResult.reached (runScript script world limit)).world.beepersAt cell).toNat +
            Entry.times .pickBeeper cell (RunResult.reached (runScript script world limit)).trace =
          (world.beepersAt cell).toNat +
            Entry.times .putBeeper cell (RunResult.reached (runScript script world limit)).trace) ∧
    (world.bag = .unbounded →
      ∀ w ∈ (RunResult.reached (runScript script world limit)).worlds, w.bag = .unbounded) := by
  refine ⟨fun n hbag hle => ?_, fun hbag => ?_⟩
  · have hfits : world.beepers.total + n.toNat < UInt32.size := Nat.lt_of_le_of_lt hle (by decide)
    have hstock : world.stock? = some (world.beepers.total + n.toNat) :=
      World.stock?_eq_some_iff.2 ⟨n, hbag, rfl⟩
    refine ⟨fun w hw => World.stock?_eq_some_iff.1 ?_, beepersAt_of_runScript hstock hfits script limit⟩
    exact forall_worlds_of_runScript (I := fun w => w.stock? = some _) hstock
      (fun _ _ _ hw haction => (World.stock?_of_apply hw hfits haction).1) script limit w hw
  · exact forall_worlds_of_runScript hbag (fun _ _ _ hw haction => World.bag_of_apply hw haction) script
      limit

theorem runScript_conserves_beepers_put :
    let script := "def main():put_beeper()"
    let world : World := { World.ofSize 1 1 with bag := .finite 4294967295 }
    world.beepers.total + (4294967295 : UInt32).toNat ≤ UInt32.size - 1 ∧
      (∃ m, (RunResult.reached (runScript script world 4)).world.bag = .finite m ∧
        (RunResult.reached (runScript script world 4)).world.beepers.total + m.toNat =
          world.beepers.total + (4294967295 : UInt32).toNat) ∧
      ((RunResult.reached (runScript script world 4)).world.beepersAt ⟨1, 1⟩).toNat +
          Entry.times .pickBeeper ⟨1, 1⟩ (RunResult.reached (runScript script world 4)).trace =
        Entry.times .putBeeper ⟨1, 1⟩ (RunResult.reached (runScript script world 4)).trace ∧
      (RunResult.reached (runScript script { world with bag := .unbounded } 4)).world.bag = .unbounded := by
  intro script world
  have hfits : world.beepers.total + (4294967295 : UInt32).toNat ≤ UInt32.size - 1 := by decide
  obtain ⟨hworlds, hcells⟩ := (runScript_conserves_beepers script world 4).1 _ rfl hfits
  have hendless := (runScript_conserves_beepers script { world with bag := .unbounded } 4).2 rfl
  refine ⟨hfits, hworlds _ ?_, (hcells ⟨1, 1⟩).trans (Nat.zero_add _), hendless _ ?_⟩
  · exact List.mem_append_right _ List.mem_cons_self
  · exact List.mem_append_right _ List.mem_cons_self

end GridRobot
