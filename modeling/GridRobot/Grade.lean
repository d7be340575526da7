import GridRobot.Goal
import GridRobot.Run.Outcome
import GridRobot.World.Declaration

/-!
# Grading

A submission is solved when its run ends without a failure in a world that agrees with the goal. The
report of a run has one form for both ends.
-/

namespace GridRobot

/-- Why a run failed, as it is reported. -/
structure ErrorReport where
  kind : String
  message : String
  line : Option Nat
  deriving DecidableEq, Repr

def Failure.report (f : Failure) : ErrorReport := ⟨f.error.kind, f.error.message, f.line⟩

/-- A run, whichever way it ended. -/
structure RunReport where
  reached : Outcome
  error : Option ErrorReport
  deriving DecidableEq

namespace RunReport

def ofResult : RunResult → RunReport
  | .ok outcome => ⟨outcome, none⟩
  | .error failure => ⟨failure.reached, some failure.report⟩

def success (r : RunReport) : Bool := r.error.isNone

end RunReport

inductive Verdict where
  | solved
  | goalNotReached
  | failed
  deriving DecidableEq, Repr

namespace Verdict

def name : Verdict → String
  | .solved => "solved"
  | .goalNotReached => "goal_not_reached"
  | .failed => "failed"

/-- The verdict as a phrase. -/
def phrase : Verdict → String
  | .solved => "solved"
  | .goalNotReached => "goal not reached"
  | .failed => "failed"

end Verdict

structure Grade where
  verdict : Verdict
  run : RunReport
  mismatches : List Mismatch
  deriving DecidableEq

namespace Grade

/-- The number of commands carried out, those before a failure included. -/
def actions (g : Grade) : Nat := g.run.reached.trace.length

def isSolved (g : Grade) : Bool := g.verdict == .solved

/-- The verdict on a run whose last world differs from the goal in the given ways. -/
def verdictOf (run : RunReport) (mismatches : List Mismatch) : Verdict :=
  if !run.success then .failed else if mismatches.isEmpty then .solved else .goalNotReached

/-- Runs a script once and compares the world it reaches with the goal. -/
def ofWorlds (world goal : World) (script : String) (limit : Nat) : Grade :=
  let run := RunReport.ofResult (runScript script world limit)
  let mismatches := World.mismatches run.reached.world goal
  ⟨verdictOf run mismatches, run, mismatches⟩

/-- Grades a script on worlds given as text. -/
def ofTexts (world goal script : String) (limit : Nat) : Grade :=
  ofWorlds (World.parse world) (World.parse goal) script limit

end Grade

end GridRobot
