import GridRobot.CommandLine.Answer

/-!
# The program

Reads the files that the command line names, prints the answer and exits with its code.
-/

namespace GridRobot.CommandLine

/-- The fault behind the number of an error of the system, which is given with either sign. -/
def faultOfCode? (code : UInt32) : Option ReadFault :=
  let is (n : UInt32) : Bool := code == n || code + n == 0
  if is 2 then some .missing
  else if is 20 then some .notFolder
  else if is 21 then some .isFolder
  else if is 36 then some .nameTooLong
  else none

/-- The fault that the system reports. -/
def faultOf (e : IO.Error) : ReadFault :=
  let fault? := match e with
    | .noFileOrDirectory _ code _ => faultOfCode? code
    | .inappropriateType _ code _ => faultOfCode? code
    | .invalidArgument _ code _ => faultOfCode? code
    | _ => none
  fault?.getD (.other (toString e))

/-- Reads a file as text. -/
def readContent (path : String) : IO (Except ReadFault String) := do
  try
    match String.fromUTF8? (← IO.FS.readBinFile path) with
    | some content => return .ok content
    | none => return .error .notText
  catch e => return .error (faultOf e)

/-- Reads the files of an invocation, so that they can be looked up by their paths. -/
def readAll (paths : List String) : IO Files := do
  let contents ← paths.mapM fun path => return (path, ← readContent path)
  return fun path => (contents.lookup path).getD (.error .missing)

end GridRobot.CommandLine

open GridRobot.CommandLine in
def main (args : List String) : IO UInt32 := do
  let preset ← IO.getEnv "KAREL_MAX_STEPS"
  let a ← match Invocation.parse args preset with
    | .ok i => do
        let files ← readAll (i.files.map (·.2))
        pure (i.answer files)
    | .error stop => pure stop.answer
  IO.print a.output
  IO.eprint a.errors
  return UInt32.ofNat a.exit
