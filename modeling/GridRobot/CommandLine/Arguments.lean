import GridRobot.Run.Outcome

/-!
# Arguments of the command line

Arguments are read from left to right. Global options may stand before the subcommand and behind it, the
options of a subcommand only behind it. An option may be given once on either side; given on both sides,
the one behind the subcommand counts. Whatever cannot be made sense of is a usage error, and a request
for the version or for help is answered as soon as it is read.
-/

namespace GridRobot

namespace CommandLine

inductive Subcommand where
  | run
  | check
  | grade
  | fmtWorld
  deriving DecidableEq, Repr

namespace Subcommand

def all : List Subcommand := [.run, .check, .grade, .fmtWorld]

def name : Subcommand → String
  | .run => "run"
  | .check => "check"
  | .grade => "grade"
  | .fmtWorld => "fmt-world"

def ofName? (name : String) : Option Subcommand := all.find? (·.name == name)

end Subcommand

/-- The files that a subcommand may need. -/
inductive FileOption where
  | world
  | goal
  | script
  deriving DecidableEq, Repr

namespace FileOption

def all : List FileOption := [.world, .goal, .script]

def name : FileOption → String
  | .world => "world"
  | .goal => "goal"
  | .script => "script"

end FileOption

/-- The files that a subcommand needs. -/
def Subcommand.files : Subcommand → List FileOption
  | .run => [.world, .script]
  | .check => [.script]
  | .grade => [.world, .goal, .script]
  | .fmtWorld => [.world]

/-- What ends the reading of arguments early. -/
inductive Interruption where
  | usage
  | version
  | help
  deriving DecidableEq, Repr

/-- The options seen so far on one side of the subcommand. -/
structure Options where
  maxSteps : Option String
  json : Bool
  files : List (FileOption × String)
  deriving DecidableEq, Repr

namespace Options

def empty : Options := ⟨none, false, []⟩

def file? (o : Options) (f : FileOption) : Option String := o.files.lookup f

end Options

/-- An option that takes a value. -/
inductive Valued where
  | maxSteps
  | file (file : FileOption)
  deriving DecidableEq, Repr

/-- One side of the command line: the options it allows. -/
structure Side where
  files : List FileOption
  /-- Whether the version may be asked for. -/
  hasVersion : Bool

def Side.front : Side := ⟨[], true⟩

def Side.behind (c : Subcommand) : Side := ⟨c.files, false⟩

/-- The option with a value that goes by a long name. -/
def Side.valued? (side : Side) (name : String) : Option Valued :=
  if name = "max-steps" then some .maxSteps
  else (side.files.find? (·.name == name)).map .file

/-- Sets an option once. File names are not empty. -/
def Options.set (o : Options) (v : Valued) (value : String) : Except Interruption Options :=
  match v with
  | .maxSteps => if o.maxSteps.isSome then .error .usage else .ok { o with maxSteps := some value }
  | .file f =>
      if value.isEmpty || (o.file? f).isSome then .error .usage
      else .ok { o with files := (f, value) :: o.files }

/-- A limit: digits, with a plus sign in front if one likes, whose value has at most 64 bits. -/
def limit? (s : String) : Option Nat :=
  let digits := match s.toList with
    | '+' :: rest => rest
    | rest => rest
  let n := Text.numeralValue digits
  if !digits.isEmpty && digits.all Char.isDigit && n < UInt64.size then some n else none

/-- Sets an option, a limit being looked at right away. -/
def Options.setChecked (o : Options) (v : Valued) (value : String) : Except Interruption Options :=
  if v = .maxSteps ∧ limit? value = none then .error .usage else o.set v value

/-- A cluster of one-letter options. -/
def shortFlags (side : Side) : Text → Except Interruption Unit
  | [] => .ok ()
  | 'v' :: rest => shortFlags side rest
  | 'h' :: _ => .error .help
  | 'V' :: _ => if side.hasVersion then .error .version else .error .usage
  | _ :: _ => .error .usage

/-- A long option without a value. -/
def longFlag (side : Side) (name : String) (o : Options) : Except Interruption Options :=
  if name = "json" then if o.json then .error .usage else .ok { o with json := true }
  else if name = "verbose" then .ok o
  else if name = "help" then .error .help
  else if name = "version" ∧ side.hasVersion then .error .version
  else .error .usage

/-- Whether an argument is read as an option and not as a value: a dash alone is a value. -/
def isOption (arg : Text) : Bool := arg.head? == some '-' && arg != ['-']

/-- Reads one side. It ends with the arguments, or on the front side at the first one that is no option;
what is left is handed back. Behind two dashes alone there may be nothing more. -/
def options (side : Side) : List String → Options → Except Interruption (List String × Options)
  | [], o => .ok ([], o)
  | arg :: rest, o =>
      match arg.toList with
      | '-' :: '-' :: long =>
          if long.isEmpty then if rest.isEmpty then .ok ([], o) else .error .usage
          else
            let name := String.ofList (long.takeWhile (· != '='))
            let attached := long.dropWhile (· != '=')
            match side.valued? name, attached, rest with
            | some v, _ :: value, rest => do options side rest (← o.setChecked v (String.ofList value))
            | some v, [], value :: rest =>
                if isOption value.toList then .error .usage
                else do options side rest (← o.setChecked v value)
            | some _, [], [] => .error .usage
            | none, _ :: _, _ => .error .usage
            | none, [], rest => do options side rest (← longFlag side name o)
      | '-' :: c :: cs => do
          shortFlags side (c :: cs)
          options side rest o
      | _ => .ok (arg :: rest, o)

/-- The limit preset in the environment takes the place of an option that is not given, and has to be a
limit wherever it does. -/
def sideLimit (o : Options) (preset : Option String) : Except Interruption Unit :=
  match o.maxSteps, preset with
  | none, some value => if (limit? value).isSome then .ok () else .error .usage
  | _, _ => .ok ()

/-- The answer to a request for help: it may name one subcommand, help itself included, and nothing more. -/
def helpOn : List String → Interruption
  | [] => .help
  | [topic] => if topic = "help" ∨ (Subcommand.ofName? topic).isSome then .help else .usage
  | _ => .usage

/-- A command line that makes sense. -/
structure Invocation where
  subcommand : Subcommand
  limit : Nat
  json : Bool
  files : List (FileOption × String)
  deriving DecidableEq, Repr

namespace Invocation

def file (i : Invocation) (f : FileOption) : String := (i.files.lookup f).getD ""

/-- Puts both sides together. -/
def ofSides (c : Subcommand) (front behind : Options) (preset : Option String) :
    Except Interruption Invocation := do
  if c.files.any fun f => (behind.file? f).isNone then .error .usage
  else
    sideLimit behind preset
    sideLimit front preset
    let text := (behind.maxSteps.or front.maxSteps).or preset
    let limit := (text.bind limit?).getD defaultLimit
    .ok ⟨c, limit, behind.json || front.json, behind.files⟩

/-- Reads the arguments. `preset` is the limit set in the environment. -/
def parse (args : List String) (preset : Option String) : Except Interruption Invocation := do
  let (rest, front) ← options .front args .empty
  match rest with
  | [] => .error .usage
  | name :: rest =>
      match Subcommand.ofName? name with
      | none => .error (if name = "help" then helpOn rest else .usage)
      | some c => do
          let (rest, behind) ← options (.behind c) rest .empty
          if rest.isEmpty then ofSides c front behind preset else .error .usage

end Invocation

end CommandLine

end GridRobot
