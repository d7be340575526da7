import GridRobot.Proofs.Run.Course
import GridRobot.Proofs.Run.Turn

/-!
# Plans

A plan is a program as its author thinks of it: procedures made of calls, loops and branches that nest,
with no text and no indentation. The types leave no room for the plans that cannot be written down. A
word has a character and only characters of names, a block has a first statement, an `else` comes last,
and the procedures of a plan have names of their own, one of them the entry point.

Here are the two things that can be done with a plan: it can be written as a script (`Plan.render`), and
it can be run directly, by recursion over its trees (`Plan.run`). `Proofs.Plan.Run` proves that the two
agree.
-/

namespace GridRobot

/-- A name as it may stand in a script. -/
structure Word where
  text : Text
  nonempty : text ≠ []
  wordChars : ∀ c ∈ text, Text.isWordChar c = true

def Word.name (w : Word) : String := String.ofList w.text

mutual

/-- A statement with everything that belongs to it. -/
inductive Tree where
  | call (name : Word)
  | loop (condition : Word) (first : Tree) (more : Forest)
  | branch (condition : Word) (first : Tree) (more : Forest) (others : Branches)

/-- Statements one after another. -/
inductive Forest where
  | nil
  | cons (first : Tree) (more : Forest)

/-- What follows the block of an `if`. -/
inductive Branches where
  | done
  | otherwise (first : Tree) (more : Forest)
  | elseIf (condition : Word) (first : Tree) (more : Forest) (others : Branches)

end

structure Routine where
  name : Word
  first : Tree
  more : Forest

def Routine.body (r : Routine) : Forest := .cons r.first r.more

structure Plan where
  routines : List Routine
  distinct : (routines.map (·.name.name)).Nodup
  hasEntryPoint : entryPoint ∈ routines.map (·.name.name)

/-! ### Plans as text -/

/-- What stands on a line of a plan's script. -/
inductive Phrase where
  | call (name : Word)
  | loop (condition : Word)
  | branch (condition : Word)
  | elseIf (condition : Word)
  | otherwise

def Phrase.text : Phrase → Text
  | .call name => name.text ++ "()".toList
  | .loop condition => "while ".toList ++ condition.text ++ "():".toList
  | .branch condition => "if ".toList ++ condition.text ++ "():".toList
  | .elseIf condition => "elif ".toList ++ condition.text ++ "():".toList
  | .otherwise => "else:".toList

structure Row where
  depth : Nat
  phrase : Phrase

/-- Every level is indented by four spaces more than the one around it. -/
def Row.text (r : Row) : Text := List.replicate (4 * r.depth) ' ' ++ r.phrase.text

mutual

def Tree.rows (depth : Nat) : Tree → List Row
  | .call name => [⟨depth, .call name⟩]
  | .loop condition first more =>
      ⟨depth, .loop condition⟩ :: (first.rows (depth + 1) ++ more.rows (depth + 1))
  | .branch condition first more others =>
      ⟨depth, .branch condition⟩ ::
        (first.rows (depth + 1) ++ more.rows (depth + 1) ++ others.rows depth)

def Forest.rows (depth : Nat) : Forest → List Row
  | .nil => []
  | .cons first more => first.rows depth ++ more.rows depth

def Branches.rows (depth : Nat) : Branches → List Row
  | .done => []
  | .otherwise first more =>
      ⟨depth, .otherwise⟩ :: (first.rows (depth + 1) ++ more.rows (depth + 1))
  | .elseIf condition first more others =>
      ⟨depth, .elseIf condition⟩ ::
        (first.rows (depth + 1) ++ more.rows (depth + 1) ++ others.rows depth)

end

def Routine.header (r : Routine) : Text := "def ".toList ++ r.name.text ++ "():".toList

def Routine.lines (r : Routine) : List Text := r.header :: (r.body.rows 1).map Row.text

def Plan.lines (plan : Plan) : List Text := plan.routines.flatMap Routine.lines

/-- The script of a plan, with any number of line feeds behind its last line. -/
def Plan.render (plan : Plan) (feeds : Nat) : String :=
  String.ofList (List.intercalate ['\n'] plan.lines ++ List.replicate feeds '\n')

/-! ### Plans as they are run

The number of the line on which a statement stands in the script goes along, since errors name it. So does
the room for blocks to nest: a block that is entered and every further turn of a loop take one level of
it, and going on to the next statement takes none. -/

/-- The number of lines a statement takes up; its depth plays no part. -/
def Tree.height (t : Tree) : Nat := (t.rows 0).length

def Forest.height (f : Forest) : Nat := (f.rows 0).length

/-- What stays the same while a plan is run. -/
structure Staging (σ : Type) where
  /-- The body of a procedure, with the number of its first line. -/
  routine? : String → Option (Nat × Forest)
  limit : Nat
  observe : σ → Entry → σ

section Eval

variable {σ : Type}

mutual

/-- The course of a statement, which is counted once when it is come to. -/
def Tree.eval (e : Staging σ) (room row : Nat) (t : Tree) (p : Progress σ) : Course σ (Progress σ) := do
  let p ← p.visit e.limit row
  match t with
  | .call name =>
      match Command.ofName? name.name with
      | some action => p.perform e.observe action
      | none =>
          match e.routine? name.name with
          | some body => Forest.enter e room body p
          | none =>
              if idleCalls.contains name.name || (Condition.ofName? name.name).isSome then pure p
              else throw ⟨.unknownCommand name.name row, p⟩
  | .loop condition first more => do
      let c ← p.resolve row condition.name
      (Forest.cons first more).again e room c (row + 1) p
  | .branch condition first more others => do
      let c ← p.resolve row condition.name
      let body := Forest.cons first more
      others.eval e room (row + 1 + body.height) (if c.holds p.world then some (row + 1, body) else none) p
termination_by (room, sizeOf t)

def Forest.eval (e : Staging σ) (room row : Nat) (f : Forest) (p : Progress σ) : Course σ (Progress σ) :=
  match f with
  | .nil => pure p
  | .cons first more => do
      let p ← first.eval e room row p
      more.eval e room (row + first.height) p
termination_by (room, sizeOf f)

/-- The course of a loop: looking at the condition again is free. -/
def Forest.again (e : Staging σ) (room : Nat) (c : Condition) (row : Nat) (body : Forest)
    (p : Progress σ) : Course σ (Progress σ) :=
  if c.holds p.world then
    match room with
    | 0 => .cramped
    | room + 1 => do
        let p ← body.eval e room row p
        body.again e room c row p
  else pure p
termination_by (room, 0)

/-- The course of the clauses behind an `if`, of which each is counted, and then of the block chosen. -/
def Branches.eval (e : Staging σ) (room row : Nat) (others : Branches) (chosen : Option (Nat × Forest))
    (p : Progress σ) : Course σ (Progress σ) :=
  match others with
  | .done => Forest.enter e room chosen p
  | .otherwise first more => do
      let p ← p.visit e.limit row
      Forest.enter e room (chosen.getD (row + 1, .cons first more)) p
  | .elseIf condition first more others => do
      let p ← p.visit e.limit row
      let body := Forest.cons first more
      match chosen with
      | some chosen => others.eval e room (row + 1 + body.height) (some chosen) p
      | none => do
          let c ← p.resolve row condition.name
          others.eval e room (row + 1 + body.height)
            (if c.holds p.world then some (row + 1, body) else none) p
termination_by (room, sizeOf others)

/-- The course of a block, if there is one, within the block that is being run. -/
def Forest.enter (e : Staging σ) (room : Nat) (block : Option (Nat × Forest)) (p : Progress σ) :
    Course σ (Progress σ) :=
  match room, block with
  | _, none => pure p
  | 0, some _ => .cramped
  | room + 1, some (row, body) => body.eval e room row p
termination_by (room, 0)

end

end Eval

/-- The body of the procedure with a name, and the number of its first line, if the first of the
procedures has its header on the line `row`. -/
def Routine.locate (name : String) (row : Nat) : List Routine → Option (Nat × Forest)
  | [] => none
  | r :: rs =>
      if r.name.name = name then some (row + 1, r.body) else locate name (row + 1 + r.body.height) rs

def Plan.staging (plan : Plan) (limit : Nat) : Staging Unit :=
  ⟨fun name => Routine.locate name 1 plan.routines, limit, fun _ _ => ()⟩

/-- Runs a plan from its entry point; nothing if there is not enough room. -/
def Plan.run (plan : Plan) (room : Nat) (world : World) (limit : Nat) : Option RunResult := do
  let (row, body) ← Routine.locate entryPoint 1 plan.routines
  let result ← (body.eval (plan.staging limit) room row (.start world ())).run
  return .ofEnd result

end GridRobot
