import GridRobot.World.Edge

/-!
# Why a run stops early

Every cause ends the run. `kind` is the stable name of a cause and `message` what the author of the
script gets to read.
-/

namespace GridRobot

inductive RunError where
  | noEntryPoint
  | unknownCommand (name : String) (line : Nat)
  | unknownCondition (condition : String) (line : Nat)
  | movementBlocked (pose : Pose)
  | noBeeperHere (cell : Position)
  | bagEmpty
  | stepLimit (limit : Nat)
  /-- A loop whose condition is true has no line that could ever make it false. -/
  | emptyLoop (limit : Nat)
  deriving DecidableEq, Repr

namespace RunError

def kind : RunError → String
  | .noEntryPoint => "no_entry_point"
  | .unknownCommand .. => "unknown_command"
  | .unknownCondition .. => "unknown_condition"
  | .movementBlocked _ => "movement_blocked"
  | .noBeeperHere _ => "no_beeper_here"
  | .bagEmpty => "bag_empty"
  | .stepLimit _ => "step_limit_exceeded"
  | .emptyLoop _ => "step_limit_exceeded"

def message : RunError → String
  | .noEntryPoint => "main() not found: define it with `def main():`"
  | .unknownCommand name _ => "unknown command: " ++ name ++ "()"
  | .unknownCondition condition _ => "unknown condition: " ++ condition
  | .movementBlocked pose => "Karel is blocked at " ++ pose.render
  | .noBeeperHere cell => "no beeper to pick up at " ++ cell.render
  | .bagEmpty => "Karel's beeper bag is empty"
  | .stepLimit limit =>
      "program exceeded the maximum of " ++ showNat limit ++ " steps; is there an infinite loop?"
  | .emptyLoop _ => "while loop with a true condition has an empty body and would never finish"

end RunError

end GridRobot
