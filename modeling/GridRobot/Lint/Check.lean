import GridRobot.Lint.Diagnostic
import GridRobot.Script.Program

/-!
# Checking scripts without running them

The check is advice: a script with findings may run all the same. It looks for an entry point, for
parentheses that do not pair up, for names of the robot's vocabulary that are not called, and for
headers whose next line is not indented.
-/

namespace GridRobot

namespace Lint

/-- The names that are looked for. -/
def vocabulary : List String :=
  ["move", "turn_left", "pick_beeper", "put_beeper", "front_is_clear", "left_is_clear",
    "right_is_clear", "beepers_present", "beepers_in_bag"]

/-- A script that is not blank defines an entry point. -/
def entryPointFindings (t : Text) : List Diagnostic :=
  if t.isEmptyLine || (Program.ofText t).defines entryPoint then []
  else [⟨.missingMain, "main() is not defined", some 1, some "def main():"⟩]

/-- Opening parentheses are as many as closing ones. -/
def parenthesisFindings (t : Text) : List Diagnostic :=
  let opened := t.count '('
  let closed := t.count ')'
  if opened = closed then []
  else if closed < opened then
    [⟨.unbalancedParentheses, showNat (opened - closed) ++ " unclosed parenthesis(es)", none, none⟩]
  else
    [⟨.unbalancedParentheses, showNat (closed - opened) ++ " unmatched closing parenthesis(es)", none,
      none⟩]

/-- Whether a name between a character and a text is a whole word there that is not called. -/
def isBare (before : Option Char) (after : Text) : Bool :=
  !before.any Text.isWordChar && !after.head?.any Text.isWordChar &&
    after.trimStart.head? != some '('

/-- Whether a name is mentioned somewhere without being called. Its occurrences are taken from left to
right, and none is looked for inside the one before: `inside` characters of that one are still to be
passed. `before` is the character in front. -/
def mentions (name : Text) : (inside : Nat) → (before : Option Char) → Text → Bool
  | _, _, [] => false
  | inside + 1, _, c :: cs => mentions name inside (some c) cs
  | 0, before, c :: cs =>
      match Text.after? name (c :: cs) with
      | none => mentions name 0 (some c) cs
      | some after => isBare before after || mentions name (name.length - 1) (some c) cs

/-- The names that a line mentions without calling them, each once; comment lines mention nothing. -/
def bareNames (line : Text) : List String :=
  let trimmed := line.trim
  if trimmed.head? = some '#' then []
  else vocabulary.filter fun name => mentions name.toList 0 none trimmed

def bareNameFinding (number : Nat) (name : String) : Diagnostic :=
  ⟨.callWithoutParentheses, "`" ++ name ++ "` must be called with parentheses", some number,
    some (name ++ "()")⟩

/-- The words that open a block. -/
def headerWords : List String := ["def", "if", "while", "else", "elif"]

/-- Whether a trimmed line opens a block with a given word: a blank follows and a colon comes later,
or the word is `else` and a colon comes next. -/
def opensWith (line : Text) (word : String) : Bool :=
  match Text.after? word.toList line with
  | none => false
  | some rest =>
      (rest.head?.any Text.isBlank && rest.contains ':') ||
        (word == "else" && rest.trimStart.head? == some ':')

def isHeader (line : Text) : Bool := headerWords.any (opensWith line)

/-- Whether a line lacks the indentation that the line before it asks for. -/
def lacksIndent (line next : Text) : Bool :=
  isHeader line.trim && !next.isEmptyLine && next.head? != some ' ' && next.head? != some '\t'

/-- The finding about a line that is not indented as the line before it asks for. -/
def indentFindings (line : Text) : Option (Nat × Text) → List Diagnostic
  | some (number, next) =>
      if lacksIndent line next then
        [⟨.expectedIndent, "expected an indented block", some number, none⟩]
      else []
  | none => []

/-- The findings line by line. -/
def lineFindings : List (Nat × Text) → List Diagnostic
  | [] => []
  | (number, line) :: rest =>
      (bareNames line).map (bareNameFinding number) ++ indentFindings line rest.head? ++
        lineFindings rest

/-- All findings about a script. -/
def findings (t : Text) : List Diagnostic :=
  entryPointFindings t ++ parenthesisFindings t ++ lineFindings t.numberedLines

end Lint

/-- Checks a script. -/
def lintScript (script : String) : Diagnostics := .ofList (Lint.findings script.toList)

end GridRobot
