import GridRobot.Text.Word

/-!
# Statements

Each line of a script is read on its own, indentation aside. A line asks for one of a few things; what
it cannot be made out to ask for does nothing when the script runs.
-/

namespace GridRobot

inductive Statement where
  /-- A blank line, a comment, or a line that starts with triple quotes. -/
  | skip
  | whileLoop (condition : String)
  | ifBranch (condition : String)
  | elifBranch (condition : String)
  | elseBranch
  | call (name : String)
  | other
  deriving DecidableEq, Repr, Inhabited

namespace Statement

/-- Whether a line of this kind carries on a chain of branches. -/
def continuesBranch : Statement → Bool
  | .elifBranch _ => true
  | .elseBranch => true
  | _ => false

/-- The text before the last `mark`. -/
def beforeLast? (mark : Char) : Text → Option Text
  | [] => none
  | c :: cs =>
      match beforeLast? mark cs with
      | some t => some (c :: t)
      | none => if c = mark then some [] else none

/-- The text without a pair of parentheses at its end. -/
def dropCall (t : Text) : Text :=
  match t.reverse with
  | ')' :: '(' :: rest => rest.reverse
  | _ => t

/-- A condition as it is looked up: trimmed, without the parentheses of a call. -/
def condition (raw : Text) : Text := (dropCall raw.trim).trim

/-- The condition of a line that starts with `keyword`. It reaches to the last colon of the line, and
a line with nothing before that colon is no header. -/
def headerCondition? (keyword line : Text) : Option String := do
  let rest ← Text.after? keyword line
  let raw ← beforeLast? ':' rest
  if raw.isEmptyLine then none else some (String.ofList (condition raw))

/-- Whether a line reads `else`, with a colon next. -/
def isElse (line : Text) : Bool :=
  match Text.after? "else".toList line with
  | some rest => rest.trimStart.head? == some ':'
  | none => false

/-- The name of a line that starts as a call without arguments; what follows the call is ignored. -/
def callName? (line : Text) : Option String := do
  let (name, rest) := line.spanWord
  if name.isEmpty then none
  let rest ← Text.expect? '(' rest.trimStart
  let _ ← Text.expect? ')' rest.trimStart
  return String.ofList name

/-- Whether a trimmed line is passed over. -/
def isPassedOver (line : Text) : Bool :=
  line.isEmpty || line.head? == some '#' || (Text.after? "\"\"\"".toList line).isSome ||
    (Text.after? "'''".toList line).isSome

/-- What a line asks for. -/
def read (raw : Text) : Statement :=
  let line := raw.trim
  if isPassedOver line then .skip
  else if let some c := headerCondition? "while ".toList line then .whileLoop c
  else if let some c := headerCondition? "if ".toList line then .ifBranch c
  else if let some c := headerCondition? "elif ".toList line then .elifBranch c
  else if isElse line then .elseBranch
  else if let some name := callName? line then .call name
  else .other

end Statement

end GridRobot
