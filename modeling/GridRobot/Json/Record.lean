import GridRobot.Json.Reader

/-!
# Reading records from JSON

A record is written as an object with named fields in any order, or as a list of its fields in their
fixed order. Fields are collected in a draft. Names that are not fields are passed over, a field given
twice is a fault as soon as its name is read again, and a missing field is noticed at the end.
-/

namespace GridRobot

namespace Json

/-- A field of a record that is collected in a draft. -/
structure Field (δ : Type) where
  name : String
  isSet : δ → Bool
  read : δ → Reader δ

/-- A field that keeps what `reader` reads. -/
def Field.of {δ α : Type} (name : String) (get : δ → Option α) (set : δ → α → δ) (reader : Reader α) :
    Field δ where
  name := name
  isSet d := (get d).isSome
  read d t := do
    let (a, t) ← reader t
    .ok (set d a, t)

/-- A kind of record: its name, its fields in order, the draft to start with, and the value that a full
draft stands for. -/
structure Record (δ α : Type) where
  name : String
  fields : List (Field δ)
  draft : δ
  finish : δ → Option α

namespace Record

variable {δ α : Type}

def described (r : Record δ α) : String := "struct " ++ r.name

/-- Reads what follows a key. -/
def member (r : Record δ α) (key : Text) (d : δ) : Reader δ := fun t =>
  match r.fields.find? (·.name == String.ofList key) with
  | some f =>
      if f.isSet d then .error (.data (.duplicateField f.name))
      else do
        let t ← punctuation ':' t
        f.read d t
  | none => do
      let t ← punctuation ':' t
      let t ← ignored t
      .ok (d, t)

/-- Reads members up to the closing brace; there is at least one. -/
def members (r : Record δ α) : (fuel : Nat) → δ → Reader δ
  | 0, _, _ => .error .malformed
  | fuel + 1, d, t => do
      let (key, t) ← quotedString (skipSpace t)
      let (d, t) ← r.member key d t
      match skipSpace t with
      | '\x7d' :: rest => .ok (d, rest)
      | ',' :: rest => r.members fuel d rest
      | _ => .error .malformed

/-- Reads the fields of the list form in order. `before` is the number of fields read already. -/
def entries (r : Record δ α) : List (Field δ) → (before : Nat) → δ → Reader δ
  | [], _, d, t => do
      let t ← punctuation ']' t
      .ok (d, t)
  | f :: fs, before, d, t => do
      let t ← match before, skipSpace t with
        | _, ']' :: _ =>
            .error (.data (.invalidLength before
              (r.described ++ " with " ++ showNat r.fields.length ++ " elements")))
        | 0, t => .ok t
        | _ + 1, ',' :: rest => .ok rest
        | _ + 1, _ => .error .malformed
      let (d, t) ← f.read d t
      r.entries fs (before + 1) d t

/-- The value of a draft; the first field that is not set is missing. -/
def complete (r : Record δ α) (d : δ) : Except Fault α :=
  match r.fields.find? fun f => !f.isSet d with
  | some f => .error (.data (.missingField f.name))
  | none => orMalformed (r.finish d)

/-- Reads a record. -/
def reader (r : Record δ α) : Reader α := fun t => do
  let (d, t) ← match skipSpace t with
    | '[' :: rest => r.entries r.fields 0 r.draft rest
    | '\x7b' :: rest =>
        match skipSpace rest with
        | '\x7d' :: rest => .ok (r.draft, rest)
        | rest => r.members rest.length r.draft rest
    | t => unexpected r.described t
  let a ← r.complete d
  .ok (a, t)

end Record

end Json

end GridRobot
