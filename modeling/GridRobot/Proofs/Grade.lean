import GridRobot.Grade
import GridRobot.Proofs.Goal
import GridRobot.Proofs.Run.Replay

/-!
# Grades

A script is graded as solved exactly if its run ends without a failure in a world that agrees with the goal
(`World.Agrees`), and the trace of the report proves it.
-/

namespace GridRobot

namespace Grade

variable (world goal : World) (script : String) (limit : Nat)

theorem verdict_solved_iff : (ofWorlds world goal script limit).verdict = .solved ↔
    ∃ outcome, runScript script world limit = .ok outcome ∧ outcome.world.Agrees goal := by
  unfold ofWorlds verdictOf
  cases hrun : runScript script world limit with
  | error failure => simp [RunReport.ofResult, RunReport.success]
  | ok outcome =>
      simp only [RunReport.ofResult, RunReport.success, ← World.mismatches_eq_nil_iff]
      simp

theorem verdict_failed_iff : (ofWorlds world goal script limit).verdict = .failed ↔
    ∃ failure, runScript script world limit = .error failure := by
  unfold ofWorlds verdictOf
  cases hrun : runScript script world limit with
  | error failure => simp [RunReport.ofResult, RunReport.success]
  | ok outcome =>
      by_cases hnone : outcome.world.mismatches goal = [] <;>
        simp [RunReport.ofResult, RunReport.success, hnone]

theorem reached_ofWorlds : (ofWorlds world goal script limit).run.reached =
    RunResult.reached (runScript script world limit) := by
  unfold ofWorlds
  cases runScript script world limit with
  | error failure => rfl
  | ok outcome => rfl

theorem error_ofWorlds : (ofWorlds world goal script limit).run.error =
    match runScript script world limit with
    | .ok _ => none
    | .error failure => some ⟨failure.error.kind, failure.error.message, failure.line⟩ := by
  unfold ofWorlds
  cases runScript script world limit with
  | error failure => rfl
  | ok outcome => rfl

theorem ofWorlds_congr {goal goal' : World} (hagent : goal'.agent = goal.agent)
    (hbeepers : goal'.beepers = goal.beepers) :
    ofWorlds world goal' script limit = ofWorlds world goal script limit := by
  unfold ofWorlds
  simp only [World.mismatches_congr _ hagent hbeepers]

/-- The commands of a report on a script that is solved lead from the start to the goal. -/
theorem replay_of_solved (h : (ofWorlds world goal script limit).verdict = .solved) :
    let grade := ofWorlds world goal script limit
    Command.replay world grade.run.reached.actions = .ok grade.run.reached.trace ∧
      grade.run.reached.actions.length = grade.actions ∧
      (Entry.lastWorld world grade.run.reached.trace).Agrees goal := by
  obtain ⟨outcome, hrun, hagrees⟩ := (verdict_solved_iff world goal script limit).1 h
  obtain ⟨hreplay, hlast⟩ := lead_of_runScript script world limit
  rw [hrun] at hreplay hlast
  intro grade
  have hreached : grade.run.reached = outcome := by
    rw [reached_ofWorlds, hrun]
    rfl
  refine ⟨?_, List.length_map _, ?_⟩
  · rw [hreached]
    exact hreplay
  · rw [hreached]
    exact hlast ▸ hagrees

/-- Grading is sound and complete. A script is solved exactly if its run ends without an error in a world
that agrees with the goal on the robot's pose and on all cells, and failed exactly if its run ends in an
error, which the report then names. The trace of a script that is solved leads from the start to the goal.
Nothing but the pose and the beepers of the goal plays a part. -/
theorem ofTexts_sound_and_complete (world goal script : String) (limit : Nat) :
    let grade := ofTexts world goal script limit
    (grade.verdict = .solved ↔ ∃ outcome, runScript script (.parse world) limit = .ok outcome ∧
      outcome.world.agent = (World.parse goal).agent ∧
      ∀ cell, outcome.world.beepersAt cell = (World.parse goal).beepersAt cell) ∧
    (grade.verdict = .failed ↔ ∃ failure, runScript script (.parse world) limit = .error failure) ∧
    (grade.run.error = match runScript script (.parse world) limit with
      | .ok _ => none
      | .error failure => some ⟨failure.error.kind, failure.error.message, failure.line⟩) ∧
    (grade.verdict = .solved →
      Command.replay (.parse world) grade.run.reached.actions = .ok grade.run.reached.trace ∧
        grade.run.reached.actions.length = grade.actions ∧
        (Entry.lastWorld (.parse world) grade.run.reached.trace).agent = (World.parse goal).agent ∧
        ∀ cell, (Entry.lastWorld (.parse world) grade.run.reached.trace).beepersAt cell =
          (World.parse goal).beepersAt cell) ∧
    ∀ goal', (World.parse goal').agent = (World.parse goal).agent →
      (World.parse goal').beepers = (World.parse goal).beepers →
      ofTexts world goal' script limit = grade :=
  ⟨verdict_solved_iff _ _ script limit, verdict_failed_iff _ _ script limit,
    error_ofWorlds _ _ script limit, replay_of_solved _ _ script limit,
    fun _ => ofWorlds_congr _ script limit⟩

theorem ofTexts_sound_and_complete_move :
    let goal := "Karel: (2, 1); east\nDimension: (2, 1)"
    let goal' := "Karel: (2, 1); east\nDimension: (9, 9)\nWall: (1, 1); north\nBeeperBag: 3"
    let grade := ofTexts "Dimension: (2, 1)" goal "def main():move()" 4
    grade.verdict = .solved ∧
      Command.replay (.parse "Dimension: (2, 1)") grade.run.reached.actions =
        .ok grade.run.reached.trace ∧
      (World.parse goal').agent = (World.parse goal).agent ∧
      (World.parse goal').beepers = (World.parse goal).beepers ∧
      ofTexts "Dimension: (2, 1)" goal' "def main():move()" 4 = grade := by
  intro goal goal' grade
  have hentry : ((Code.ofProgram (Program.parse "def main():move()")).body? entryPoint).isSome = true := by
    decide +kernel
  have hends : ((Machine.load "def main():move()" (.parse "Dimension: (2, 1)")).runWithin
      (.ofScript "def main():move()" 4) 3).any
      (fun result => result.isOk && (ending id result).world.agent == (World.parse goal).agent &&
        (ending id result).world.beepers == (World.parse goal).beepers) = true := by decide +kernel
  obtain ⟨result, hrun, htest⟩ := exists_ofEnd_of_runWithin hentry hends
  simp only [Bool.and_eq_true, beq_iff_eq] at htest
  obtain ⟨⟨hok, hagent⟩, hbeepers⟩ := htest
  obtain ⟨hsolved, -, -, hreplay, hgoal⟩ :=
    ofTexts_sound_and_complete "Dimension: (2, 1)" goal "def main():move()" 4
  have hgrade : grade.verdict = .solved := by
    cases result with
    | error stop => cases hok
    | ok p => exact hsolved.2 ⟨_, hrun, hagent, fun cell => congrArg (·.count cell) hbeepers⟩
  have hagent' : (World.parse goal').agent = (World.parse goal).agent := by decide +kernel
  have hbeepers' : (World.parse goal').beepers = (World.parse goal).beepers := by decide +kernel
  exact ⟨hgrade, (hreplay hgrade).1, hagent', hbeepers', hgoal goal' hagent' hbeepers'⟩

end Grade

end GridRobot
