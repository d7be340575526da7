import GridRobot.Text.Numeral

/-!
# JSON values and how they are written

A value is written in one line or over many. Fields keep the order in which they are given; `sortKeys`
is for documents whose fields are to be in ascending order.
-/

namespace GridRobot

inductive Json where
  | null
  | bool (value : Bool)
  | num (value : Int)
  | str (value : String)
  | arr (items : List Json)
  | obj (fields : List (String × Json))
  deriving Inhabited

namespace Json

def hexDigit (n : Nat) : Char := (Nat.toDigits 16 n).headD '0'

/-- A character of a string: quotes, backslashes and control characters are escaped. -/
def escape (c : Char) : Text :=
  if c = '"' then ['\\', '"']
  else if c = '\\' then ['\\', '\\']
  else if c = '\n' then ['\\', 'n']
  else if c = '\r' then ['\\', 'r']
  else if c = '\t' then ['\\', 't']
  else if c = '\x08' then ['\\', 'b']
  else if c = '\x0c' then ['\\', 'f']
  else if c.toNat < 0x20 then ['\\', 'u', '0', '0', hexDigit (c.toNat / 16), hexDigit (c.toNat % 16)]
  else [c]

def quote (s : String) : Text := '"' :: s.toList.flatMap escape ++ ['"']

def renderInt (n : Int) : Text :=
  if n < 0 then '-' :: Text.numeral n.natAbs else Text.numeral n.natAbs

mutual

/-- A value in one line. -/
def render : Json → Text
  | .null => ['n', 'u', 'l', 'l']
  | .bool true => ['t', 'r', 'u', 'e']
  | .bool false => ['f', 'a', 'l', 's', 'e']
  | .num n => renderInt n
  | .str s => quote s
  | .arr items => '[' :: renderItems items ++ [']']
  | .obj fields => '\x7b' :: renderFields fields ++ ['\x7d']

def renderItems : List Json → Text
  | [] => []
  | [item] => render item
  | item :: next :: rest => render item ++ ',' :: renderItems (next :: rest)

def renderFields : List (String × Json) → Text
  | [] => []
  | [(key, value)] => quote key ++ ':' :: render value
  | (key, value) :: next :: rest => quote key ++ ':' :: render value ++ ',' :: renderFields (next :: rest)

end

/-- A new line with its indentation. -/
def newLine (depth : Nat) : Text := '\n' :: List.replicate (2 * depth) ' '

mutual

/-- A value over many lines, each level two spaces deeper; empty lists and objects stay in one line. -/
def pretty (depth : Nat) : Json → Text
  | .null => ['n', 'u', 'l', 'l']
  | .bool true => ['t', 'r', 'u', 'e']
  | .bool false => ['f', 'a', 'l', 's', 'e']
  | .num n => renderInt n
  | .str s => quote s
  | .arr [] => ['[', ']']
  | .arr (item :: rest) => '[' :: prettyItems (depth + 1) (item :: rest) ++ newLine depth ++ [']']
  | .obj [] => ['\x7b', '\x7d']
  | .obj (field :: rest) =>
      '\x7b' :: prettyFields (depth + 1) (field :: rest) ++ newLine depth ++ ['\x7d']

def prettyItems (depth : Nat) : List Json → Text
  | [] => []
  | [item] => newLine depth ++ pretty depth item
  | item :: next :: rest =>
      newLine depth ++ pretty depth item ++ ',' :: prettyItems depth (next :: rest)

def prettyFields (depth : Nat) : List (String × Json) → Text
  | [] => []
  | [(key, value)] => newLine depth ++ quote key ++ ':' :: ' ' :: pretty depth value
  | (key, value) :: next :: rest =>
      newLine depth ++ quote key ++ ':' :: ' ' :: pretty depth value ++
        ',' :: prettyFields depth (next :: rest)

end

/-- Fields in ascending order with one more; a field of the same name is replaced. -/
def insertField (key : String) (value : Json) : List (String × Json) → List (String × Json)
  | [] => [(key, value)]
  | (k, v) :: rest =>
      if key < k then (key, value) :: (k, v) :: rest
      else if key = k then (key, value) :: rest
      else (k, v) :: insertField key value rest

mutual

/-- The same value with the fields of every object in ascending order. -/
def sortKeys : Json → Json
  | .arr items => .arr (sortItems items)
  | .obj fields => .obj (sortFields fields)
  | value => value

def sortItems : List Json → List Json
  | [] => []
  | item :: rest => sortKeys item :: sortItems rest

def sortFields : List (String × Json) → List (String × Json)
  | [] => []
  | (key, value) :: rest => insertField key (sortKeys value) (sortFields rest)

end

def compact (j : Json) : String := String.ofList j.render

def spread (j : Json) : String := String.ofList (j.pretty 0)

/-- Fields of which those without a value are left out. -/
def present (fields : List (String × Option Json)) : List (String × Json) :=
  fields.filterMap fun (key, value?) => value?.map (key, ·)

def nat (n : Nat) : Json := .num n

def word (n : UInt32) : Json := .num n.toNat

end Json

end GridRobot
