import GridRobot.Json.Report
import GridRobot.Lint.Check

/-!
# Text in, JSON out

The library as a set of functions from text to JSON text, for callers that share no types with it.
Reports keep their field order; answers that are put together here have their fields in ascending order.
A world that cannot be read is told apart from an answer, but it is JSON as well.
-/

namespace GridRobot

namespace Exchange

def version : String := "0.1.0"

/-- The answer to a world that cannot be read; `what` says which of the worlds it is. -/
def invalidWorld (what : String) : Json :=
  .sortKeys (.obj [("success", .bool false), ("error", .str ("invalid " ++ what ++ " world JSON"))])

def parseWorld (text : String) : Json := (World.parse text).toJson

/-- Reads a world, with the answer that is given where that fails. -/
def readWorld (what world : String) : Except Json World :=
  match World.ofJson world with
  | .ok w => .ok w
  | .error _ => .error (invalidWorld what)

def formatWorld (world : String) : Except Json Json := do
  let w ← readWorld "input" world
  .ok (.sortKeys (.obj [("success", .bool true), ("text", .str w.format)]))

/-- Runs a script; a limit of zero stands for the usual one. -/
def run (script world : String) (maxSteps : UInt32) : Json :=
  let limit := if maxSteps = 0 then defaultLimit else maxSteps.toNat
  (RunReport.ofResult (runScript script (World.parse world) limit)).toJson

def goalReached (actual goal : String) : Except Json Json := do
  let a ← readWorld "actual" actual
  let g ← readWorld "goal" goal
  .ok (.sortKeys (.obj
    [("success", .bool true), ("reached", .bool (a.reaches g)),
      ("mismatches", .arr ((a.mismatches g).map Mismatch.toJson))]))

def lint (script : String) : Json := (lintScript script).toJson

def grade (world goal script : String) : Json := (Grade.ofTexts world goal script defaultLimit).toJson

end Exchange

end GridRobot
