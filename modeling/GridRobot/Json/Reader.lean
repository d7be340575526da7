import GridRobot.Json.Fault
import GridRobot.Json.Token

/-!
# Reading typed values from JSON

A reader takes a value off the front of a text. Readers go through the text from front to back and stop
at the first thing that is wrong, so a document with two faults is reported for the first one, and what
is wrong with its data can come before what is wrong with its form.
-/

namespace GridRobot

namespace Json

abbrev Reader (α : Type) := Text → Except Fault (α × Text)

/-- What a piece of text reads as, malformed where it reads as nothing. -/
def orMalformed {α : Type} : Option α → Except Fault α
  | some a => .ok a
  | none => .error .malformed

/-- What follows a word. -/
def literal (word t : Text) : Except Fault Text := orMalformed (Text.after? word t)

def Number.found : Number → Found
  | .natural n => .integer n
  | .negative n => .integer (-n)
  | .real shown => .real shown

/-- What stands at the front of a text. Of lists and objects only the bracket is looked at. -/
def found (t : Text) : Except Fault Found :=
  match t with
  | [] => .error .malformed
  | c :: rest =>
      if c = 'n' then (literal ['u', 'l', 'l'] rest).map fun _ => .null
      else if c = 't' then (literal ['r', 'u', 'e'] rest).map fun _ => .boolean true
      else if c = 'f' then (literal ['a', 'l', 's', 'e'] rest).map fun _ => .boolean false
      else if c = '-' ∨ c.isDigit = true then (orMalformed (number? t)).map fun (n, _) => n.found
      else if c = '"' then (orMalformed (stringBody? rest)).map fun (s, _) => .string s
      else if c = '[' then .ok .sequence
      else if c = '\x7b' then .ok .map
      else .error .malformed

/-- The fault of a text that does not start with what is expected. -/
def unexpected {α : Type} (expected : String) (t : Text) : Except Fault α := do
  let f ← found t
  .error (.data (.invalidType f expected))

/-- What follows one character and the space in front of it. -/
def punctuation (c : Char) (t : Text) : Except Fault Text :=
  orMalformed (Text.expect? c (skipSpace t))

/-- A string with its quotes. -/
def quotedString : Reader Text := fun t => do
  let t ← literal ['"'] t
  orMalformed (stringBody? t)

/-- Whether a number starts here. -/
def startsNumber (t : Text) : Bool := t.head?.any fun c => c == '-' || c.isDigit

/-- A 32-bit word. -/
def word32 : Reader UInt32 := fun t =>
  let t := skipSpace t
  if startsNumber t then do
    let (n, t) ← orMalformed (number? t)
    match n with
    | .natural n =>
        if n < UInt32.size then .ok (UInt32.ofNat n, t)
        else .error (.data (.invalidValue (.integer n) "u32"))
    | .negative n => .error (.data (.invalidValue (.integer (-n)) "u32"))
    | .real shown => .error (.data (.invalidType (.real shown) "u32"))
  else unexpected "u32" t

/-- One of several names. -/
def oneOf {α : Type} (choices : List (String × α)) (given : Text) : Except Fault α :=
  match choices.lookup (String.ofList given) with
  | some a => .ok a
  | none => .error (.data (.unknownVariant given (choices.map (·.1))))

/-- The object form of a name: the only key, with null for its value; its brace has been read. -/
def variantObject {α : Type} (choices : List (String × α)) : Reader α := fun t => do
  let (given, t) ← quotedString (skipSpace t)
  let a ← oneOf choices given
  let t ← punctuation ':' t
  let t := skipSpace t
  if t.head? = some 'n' then
    let t ← literal ['n', 'u', 'l', 'l'] t
    let t ← punctuation '\x7d' t
    .ok (a, t)
  else unexpected "unit" t

/-- A value that is written as one of several names: a string, or an object with that key and null. -/
def variant {α : Type} (choices : List (String × α)) : Reader α := fun t =>
  match skipSpace t with
  | '"' :: rest => do
      let (given, t) ← orMalformed (stringBody? rest)
      let a ← oneOf choices given
      .ok (a, t)
  | '\x7b' :: rest => variantObject choices rest
  | _ => .error .malformed

/-- The items of a list up to its closing bracket; there is at least one. -/
def items {α : Type} (item : Reader α) : (fuel : Nat) → Reader (List α)
  | 0, _ => .error .malformed
  | fuel + 1, t => do
      let (a, t) ← item t
      match skipSpace t with
      | ']' :: rest => .ok ([a], rest)
      | ',' :: rest => do
          let (as, t) ← items item fuel rest
          .ok (a :: as, t)
      | _ => .error .malformed

/-- A list. Each item takes at least one character, so the text is long enough to count them. -/
def list {α : Type} (item : Reader α) : Reader (List α) := fun t =>
  match skipSpace t with
  | '[' :: rest =>
      match skipSpace rest with
      | ']' :: rest => .ok ([], rest)
      | rest => items item rest.length rest
  | t => unexpected "a sequence" t

mutual

/-- What follows a value that is not looked at. -/
def skipValue : (fuel : Nat) → Text → Except Fault Text
  | 0, _ => .error .malformed
  | fuel + 1, t =>
      match skipSpace t with
      | [] => .error .malformed
      | c :: rest =>
          if c = '"' then orMalformed (skipString? rest)
          else if c = '[' then
            match skipSpace rest with
            | ']' :: rest => .ok rest
            | rest => skipItems fuel rest
          else if c = '\x7b' then
            match skipSpace rest with
            | '\x7d' :: rest => .ok rest
            | rest => skipMembers fuel rest
          else if c = 'n' then literal ['u', 'l', 'l'] rest
          else if c = 't' then literal ['r', 'u', 'e'] rest
          else if c = 'f' then literal ['a', 'l', 's', 'e'] rest
          else if c = '-' then (orMalformed (numeral? rest)).map (·.2)
          else (orMalformed (numeral? (c :: rest))).map (·.2)

/-- What follows the items of a list that is not looked at. -/
def skipItems : (fuel : Nat) → Text → Except Fault Text
  | 0, _ => .error .malformed
  | fuel + 1, t => do
      let t ← skipValue fuel t
      match skipSpace t with
      | ']' :: rest => .ok rest
      | ',' :: rest => skipItems fuel rest
      | _ => .error .malformed

/-- What follows the members of an object that is not looked at. -/
def skipMembers : (fuel : Nat) → Text → Except Fault Text
  | 0, _ => .error .malformed
  | fuel + 1, t => do
      let t ← literal ['"'] (skipSpace t)
      let t ← orMalformed (skipString? t)
      let t ← punctuation ':' t
      let t ← skipValue fuel t
      match skipSpace t with
      | '\x7d' :: rest => .ok rest
      | ',' :: rest => skipMembers fuel rest
      | _ => .error .malformed

end

/-- Passes over a value of any kind. -/
def ignored : Text → Except Fault Text := fun t => skipValue (2 * t.length + 1) t

/-- Reads a whole text; only space may follow the value. -/
def decode {α : Type} (reader : Reader α) (s : String) : Except Fault α := do
  let (a, rest) ← reader s.toList
  if (skipSpace rest).isEmpty then .ok a else .error .malformed

end Json

end GridRobot
