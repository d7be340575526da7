import GridRobot.Proofs.Command.Guards
import GridRobot.Proofs.Run.Invariant

/-!
# Traces can be replayed

The trace of a run is a certificate of what the run did: its commands, carried out one after another from
the world the run started in, all succeed and lead through the very worlds the trace shows, the last of
which is the world the run ended in. A run that failed for a command that could not be carried out
names the error which that command has in the world reached, and there the command, carried out in place, changes
nothing before it fails (`Command.act_eq`).
-/

namespace GridRobot

namespace Command

/-- Carries out commands one after another and shows the world after each. -/
def replay (w : World) : List Command → Except RunError (List Entry)
  | [] => .ok []
  | action :: actions => do
      let w ← action.apply w
      let entries ← replay w actions
      .ok (⟨action, w⟩ :: entries)

end Command

/-- The world after the last of some entries. -/
def Entry.lastWorld (w : World) : List Entry → World
  | [] => w
  | entry :: entries => lastWorld entry.world entries

namespace Entry

theorem lastWorld_append (w : World) (entries : List Entry) (entry : Entry) :
    lastWorld w (entries ++ [entry]) = entry.world := by
  induction entries generalizing w with
  | nil => rfl
  | cons e entries ih => exact ih e.world

end Entry

namespace Command

/-- One more command is replayed in the world that the commands before it have led to. -/
theorem replay_append {w w' : World} {actions : List Command} {entries : List Entry}
    (hreplay : replay w actions = .ok entries) {action : Command}
    (haction : action.apply (Entry.lastWorld w entries) = .ok w') :
    replay w (actions ++ [action]) = .ok (entries ++ [⟨action, w'⟩]) := by
  induction actions generalizing w entries with
  | nil =>
      cases hreplay
      change action.apply w = .ok w' at haction
      rw [List.nil_append, replay, haction]
      rfl
  | cons a actions ih =>
      rw [replay] at hreplay
      obtain ⟨w₁, hw₁, hreplay⟩ := bind_eq_ok hreplay
      obtain ⟨rest, hrest, hreplay⟩ := bind_eq_ok hreplay
      cases hreplay
      rw [List.cons_append, replay, hw₁]
      change (do
        let entries ← replay w₁ (actions ++ [action])
        .ok (⟨a, w₁⟩ :: entries) : Except RunError (List Entry)) = _
      rw [ih hrest haction]
      rfl

end Command

/-- The commands of some entries lead from one world to another, through the worlds the entries show. -/
structure Entry.Lead (start finish : World) (entries : List Entry) : Prop where
  replay : Command.replay start (entries.map (·.action)) = .ok entries
  last : finish = lastWorld start entries

theorem Entry.Lead.append {start w w' : World} {entries : List Entry} (h : Lead start w entries)
    {action : Command} (haction : action.apply w = .ok w') :
    Lead start w' (entries ++ [⟨action, w'⟩]) := by
  obtain ⟨hreplay, rfl⟩ := h
  constructor
  · rw [List.map_append]
    exact Command.replay_append hreplay haction
  · rw [lastWorld_append]

/-- The command that has an error. -/
def RunError.command? : RunError → Option Command
  | .movementBlocked _ => some .move
  | .noBeeperHere _ => some .pickBeeper
  | .bagEmpty => some .putBeeper
  | _ => none

theorem lead_of_runScript (script : String) (world : World) (limit : Nat) :
    Entry.Lead world (RunResult.reached (runScript script world limit)).world
      (RunResult.reached (runScript script world limit)).trace := by
  have hstart : Entry.Lead world world [] := ⟨rfl, rfl⟩
  exact runScript_induction hstart (fun _ _ _ _ hlead haction => hlead.append haction) script limit

/-- A command that a failure names cannot be carried out in the world reached, for the reason given. -/
theorem apply_of_runScript_error {script : String} {world : World} {limit : Nat} {failure : Failure}
    (hrun : runScript script world limit = .error failure) {action : Command}
    (haction : failure.error.command? = some action) :
    action.apply failure.reached.world = .error failure.error := by
  rcases runScript_error hrun with rfl | ⟨l, p, hfailure, hrefuses, -⟩
  · cases haction
  · have hworld : failure.reached.world = p.world := by rw [hfailure]; rfl
    generalize failure.error = error at haction hrefuses ⊢
    rw [hworld]
    cases hrefuses with
    | limit | condition | loop | name => cases haction
    | action _ _ _ herror =>
        rcases Command.apply_error herror with ⟨rfl, rfl⟩ | ⟨rfl, rfl⟩ | ⟨rfl, rfl⟩
        all_goals
          cases haction
          exact herror

/-- The trace of every run can be replayed, and a failed command fails again. Carried out in place in the world
reached it leaves that world as it is. -/
theorem runScript_replays (script : String) (world : World) (limit : Nat) :
    Entry.Lead world (RunResult.reached (runScript script world limit)).world
        (RunResult.reached (runScript script world limit)).trace ∧
      ∀ failure, runScript script world limit = .error failure →
        ∀ action, failure.error.command? = some action →
          action.apply failure.reached.world = .error failure.error ∧
            action.act.run failure.reached.world = .error failure.error failure.reached.world := by
  refine ⟨lead_of_runScript script world limit, fun failure hrun action haction => ?_⟩
  have happly := apply_of_runScript_error hrun haction
  exact ⟨happly, Command.act_eq_error_iff.2 ⟨happly, rfl⟩⟩

/-- Against the wall after two turns. -/
theorem runScript_replays_blocked :
    let script := "def main():\n turn_left()\n turn_left()\n move()"
    ∃ failure, runScript script .initial 4 = .error failure ∧ failure.error.command? = some .move ∧
      failure.reached.actions = [.turnLeft, .turnLeft] ∧
      Entry.Lead .initial failure.reached.world failure.reached.trace ∧
      Command.move.act.run failure.reached.world = .error failure.error failure.reached.world := by
  intro script
  have hentry : ((Code.ofProgram (Program.parse script)).body? entryPoint).isSome = true := by decide +kernel
  have hends : ((Machine.load script .initial).runWithin (.ofScript script 4) 4).any
      (fun result => match result with
        | .ok _ => false
        | .error stop => stop.error.command? = some .move ∧
            (Outcome.ofProgress stop.progress).actions = [.turnLeft, .turnLeft]) = true := by decide +kernel
  obtain ⟨result, hrun, htest⟩ := exists_ofEnd_of_runWithin hentry hends
  cases result with
  | ok p => cases htest
  | error stop =>
      obtain ⟨hcommand, hactions⟩ := of_decide_eq_true htest
      obtain ⟨hlead, hfails⟩ := runScript_replays script .initial 4
      have hact := (hfails _ hrun .move hcommand).2
      rw [hrun] at hlead
      exact ⟨.ofStop stop, hrun, hcommand, hactions, hlead, hact⟩

end GridRobot
