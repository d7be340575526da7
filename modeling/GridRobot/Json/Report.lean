import GridRobot.Grade
import GridRobot.Json.World
import GridRobot.Lint.Diagnostic

/-!
# Reports as JSON

Runs, grades and diagnostics as they are handed to programs. Fields stand in a fixed order; the line of
an error and the line and suggestion of a diagnostic are left out where there is none.
-/

namespace GridRobot

def Entry.toJson (e : Entry) : Json :=
  .obj [("action", e.action.toJson), ("world", e.world.toJson)]

def Outcome.traceJson (o : Outcome) : Json := .arr (o.trace.map Entry.toJson)

def ErrorReport.toJson (e : ErrorReport) : Json :=
  .obj (Json.present
    [("kind", some (.str e.kind)), ("message", some (.str e.message)), ("line", e.line.map .nat)])

/-- The error of a report, null where there is none. -/
def RunReport.errorJson (r : RunReport) : Json := (r.error.map ErrorReport.toJson).getD .null

def RunReport.toJson (r : RunReport) : Json :=
  .obj [("success", .bool r.success), ("steps", .nat r.reached.steps),
    ("final_world", r.reached.world.toJson), ("trace", r.reached.traceJson), ("error", r.errorJson)]

def Mismatch.toJson : Mismatch → Json
  | .pose expected actual =>
      .obj [("kind", .str "agent_pose"), ("expected", expected.toJson), ("actual", actual.toJson)]
  | .beepers cell expected actual =>
      .obj [("kind", .str "beepers"), ("x", .word cell.x), ("y", .word cell.y),
        ("expected", .word expected), ("actual", .word actual)]

def Grade.toJson (g : Grade) : Json :=
  .obj [("status", .str g.verdict.name), ("error", g.run.errorJson), ("actions", .nat g.actions),
    ("final_world", g.run.reached.world.toJson), ("trace", g.run.reached.traceJson),
    ("mismatches", .arr (g.mismatches.map Mismatch.toJson))]

def Diagnostic.toJson (d : Diagnostic) : Json :=
  .obj (Json.present
    [("code", some (.nat d.code.number.toNat)), ("severity", some (.str d.severity.name)),
      ("message", some (.str d.message)), ("line", d.line.map .nat),
      ("suggestion", d.suggestion.map .str)])

def Diagnostics.toJson (ds : Diagnostics) : Json :=
  .obj [("errors", .arr (ds.errors.map Diagnostic.toJson)),
    ("warnings", .arr (ds.warnings.map Diagnostic.toJson)),
    ("total_errors", .nat ds.totalErrors), ("total_warnings", .nat ds.totalWarnings)]

end GridRobot
