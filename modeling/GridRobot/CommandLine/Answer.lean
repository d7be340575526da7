import GridRobot.CommandLine.Arguments
import GridRobot.CommandLine.Folder
import GridRobot.Exchange

/-!
# What the command line answers

An answer is what is printed on both channels and the exit code. Files are looked up through a function,
so that an answer depends on nothing but the arguments, the environment and the files. They are read in
a fixed order, and the first that cannot be read decides the answer.
-/

namespace GridRobot

namespace CommandLine

structure Answer where
  exit : Nat
  output : String
  errors : String
  deriving DecidableEq, Repr

namespace Answer

def unreadable (path : String) (fault : ReadFault) : Answer :=
  ⟨1, "", "Error: failed to read " ++ path ++ "\n\nCaused by:\n    " ++ fault.reason ++ "\n"⟩

def ofOutput (ok : Bool) (output : String) : Answer := ⟨if ok then 0 else 1, output, ""⟩

end Answer

/-- Reads a file, or says that it cannot be read. -/
def readFile (files : Files) (path : String) : Except Answer String :=
  (files path).mapError (.unreadable path)

def padLeft (width : Nat) (s : String) : String :=
  String.ofList (List.replicate (width - s.length) ' ') ++ s

def padRight (width : Nat) (s : String) : String :=
  s ++ String.ofList (List.replicate (width - s.length) ' ')

/-- The line printed for a command that was carried out. -/
def traceLine (index : Nat) (e : Entry) : String :=
  padLeft 5 (showNat index) ++ "  " ++ padRight 12 e.action.name ++ " " ++ e.world.agent.render

/-- A message with the line it is about in front. -/
def atLine (line : Option Nat) (message : String) : String :=
  match line with
  | some n => "line " ++ showNat n ++ ": " ++ message
  | none => message

def failureLine (f : Failure) : String :=
  "error: " ++ atLine f.line f.error.message ++ " (after " ++ showNat f.reached.trace.length ++
    " action(s))"

/-- The observer of a printed run: it numbers the commands and adds a line for each. -/
def printEntry (seen : Nat × String) (e : Entry) : Nat × String :=
  (seen.1 + 1, seen.2 ++ traceLine (seen.1 + 1) e ++ "\n")

/-- Runs a script and prints each command as it is carried out, then the last world. -/
def printedRun (script : String) (world : World) (limit : Nat) : Answer :=
  match runScriptObserved script world limit printEntry (0, "") with
  | (.ok outcome, seen) => ⟨0, seen.2 ++ "\n" ++ outcome.world.format, ""⟩
  | (.error failure, seen) => ⟨1, seen.2, failureLine failure ++ "\n"⟩

def reportedRun (script : String) (world : World) (limit : Nat) : Answer :=
  let report := RunReport.ofResult (runScript script world limit)
  .ofOutput report.success (report.toJson.spread ++ "\n")

def renderDiagnostic (d : Diagnostic) : String :=
  d.render ++ (match d.suggestion with
    | some s => " (try `" ++ s ++ "`)"
    | none => "") ++ "\n"

def renderDiagnostics (ds : Diagnostics) : String :=
  String.join (ds.stored.map renderDiagnostic) ++ showNat ds.totalErrors ++ " error(s), " ++
    showNat ds.totalWarnings ++ " warning(s)\n"

def renderGrade (g : Grade) : String :=
  g.verdict.phrase ++ " after " ++ showNat g.actions ++ " action(s)\n" ++
    (match g.run.error with
      | some e => "  error: " ++ atLine e.line e.message ++ "\n"
      | none => "") ++
    String.join (g.mismatches.map fun m => "  - " ++ m.message ++ "\n")

def runAnswer (i : Invocation) (files : Files) : Except Answer Answer := do
  let world ← readFile files (i.file .world)
  let script ← readFile files (i.file .script)
  if i.json then .ok (reportedRun script (World.parse world) i.limit)
  else .ok (printedRun script (World.parse world) i.limit)

def checkAnswer (i : Invocation) (files : Files) : Except Answer Answer := do
  let script ← readFile files (i.file .script)
  let ds := lintScript script
  .ok (.ofOutput (!ds.hasErrors) (if i.json then ds.toJson.spread ++ "\n" else renderDiagnostics ds))

def gradeAnswer (i : Invocation) (files : Files) : Except Answer Answer := do
  let world ← readFile files (i.file .world)
  let goal ← readFile files (i.file .goal)
  let script ← readFile files (i.file .script)
  let g := Grade.ofTexts world goal script i.limit
  .ok (.ofOutput g.isSolved (if i.json then g.toJson.spread ++ "\n" else renderGrade g))

def fmtWorldAnswer (i : Invocation) (files : Files) : Except Answer Answer := do
  let world ← readFile files (i.file .world)
  .ok (.ofOutput true (World.parse world).format)

/-- The answer to a command line that makes sense. -/
def Invocation.answer (i : Invocation) (files : Files) : Answer :=
  let result := match i.subcommand with
    | .run => runAnswer i files
    | .check => checkAnswer i files
    | .grade => gradeAnswer i files
    | .fmtWorld => fmtWorldAnswer i files
  match result with
  | .ok a => a
  | .error a => a

def usageText : String :=
  "Usage: karel [--max-steps N] [--json] [-v] <COMMAND>\n\n" ++
  "Commands:\n" ++
  "  run        --world FILE --script FILE\n" ++
  "  check      --script FILE\n" ++
  "  grade      --world FILE --goal FILE --script FILE\n" ++
  "  fmt-world  --world FILE\n"

/-- The answer where reading the arguments ended early. -/
def Interruption.answer : Interruption → Answer
  | .usage => ⟨2, "", usageText⟩
  | .version => ⟨0, "karel " ++ Exchange.version ++ "\n", ""⟩
  | .help => ⟨0, usageText, ""⟩

/-- The answer to a command line. -/
def answer (args : List String) (preset : Option String) (files : Files) : Answer :=
  match Invocation.parse args preset with
  | .ok i => i.answer files
  | .error stop => stop.answer

end CommandLine

end GridRobot
