import GridRobot.Run.Machine

/-!
# Running scripts

A run starts with the procedure `main` on a copy of a world. It ends in an outcome, or in a failure that
says where it happened and what had been reached by then.
-/

namespace GridRobot

/-- What a run has reached. -/
structure Outcome where
  world : World
  /-- The commands carried out, in order. -/
  trace : List Entry
  steps : Nat
  deriving DecidableEq

namespace Outcome

/-- Nothing done. -/
def untouched (world : World) : Outcome := ⟨world, [], 0⟩

def ofProgress {σ : Type} (p : Progress σ) : Outcome := ⟨p.world, p.history.reverse, p.steps⟩

def actions (o : Outcome) : List Command := o.trace.map (·.action)

end Outcome

/-- A run that stopped early. -/
structure Failure where
  error : RunError
  /-- The line the run was at, if it had come to one. -/
  line : Option Nat
  reached : Outcome
  deriving DecidableEq

namespace Failure

def ofStop {σ : Type} (s : Stop σ) : Failure := ⟨s.error, s.progress.line, .ofProgress s.progress⟩

end Failure

abbrev RunResult := Except Failure Outcome

/-- The number of lines a run may count unless told otherwise. -/
def defaultLimit : Nat := 10000

/-- Runs code whose entry point has the given body. -/
def Setting.runBody {σ : Type} (s : Setting σ) (body : List Line) (world : World) (seen : σ) :
    RunResult × σ :=
  match Machine.run s ⟨.start world seen, [.once body]⟩ with
  | .ok p => (.ok (.ofProgress p), p.seen)
  | .error stop => (.error (.ofStop stop), stop.progress.seen)

/-- Runs a program and shows every command that is carried out to an observer. -/
def Program.runObserved {σ : Type} (program : Program) (limit : Nat) (world : World)
    (observe : σ → Entry → σ) (seen : σ) : RunResult × σ :=
  let code := Code.ofProgram program
  match code.body? entryPoint with
  | some body => Setting.runBody ⟨code, limit, observe⟩ body world seen
  | none => (.error ⟨.noEntryPoint, none, .untouched world⟩, seen)

/-- Runs a program. -/
def Program.run (program : Program) (limit : Nat) (world : World) : RunResult :=
  (program.runObserved limit world (fun (_ : Unit) _ => ()) ()).1

/-- Runs a script. -/
def runScript (script : String) (world : World) (limit : Nat) : RunResult :=
  (Program.parse script).run limit world

/-- Runs a script under the eyes of an observer. -/
def runScriptObserved {σ : Type} (script : String) (world : World) (limit : Nat)
    (observe : σ → Entry → σ) (seen : σ) : RunResult × σ :=
  (Program.parse script).runObserved limit world observe seen

end GridRobot
