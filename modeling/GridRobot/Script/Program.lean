import GridRobot.Script.Line

/-!
# Programs

A program is the procedures found in a script. A header may stand anywhere in the text, even inside a
line or a comment, and may itself run over several lines. The body of a procedure is the block that
starts right behind the colon, so its first line is what is left of the header's own line. Where a name
is defined more than once the last definition holds.
-/

namespace GridRobot

/-- The procedure that a run starts with. -/
def entryPoint : String := "main"

structure Procedure where
  name : String
  body : Block
  deriving DecidableEq, Repr

structure Program where
  /-- All procedures, in the order of the text. -/
  procedures : List Procedure
  deriving DecidableEq, Repr

namespace Program

/-- What follows the parentheses and the colon of a header, each after an optional gap. -/
def afterParameters? (t : Text) : Option Text := do
  let t ← Text.expect? '(' t.skipGap
  let t ← Text.expect? ')' t.skipGap
  Text.expect? ':' t.skipGap

/-- Name and rest of a header whose `def` has been read: a gap and a name come next. -/
def header? (t : Text) : Option (Text × Text) :=
  let word := t.skipGap.spanWord
  if t.head?.any Text.isGap && !word.1.isEmpty then
    (afterParameters? word.2).map fun rest => (word.1, rest)
  else none

theorem length_expect?_skipGap {c : Char} {t rest : Text}
    (h : Text.expect? c t.skipGap = some rest) : rest.length ≤ t.length := by
  have hle : t.skipGap.length ≤ t.length := (List.dropWhile_sublist _).length_le
  cases hg : t.skipGap with
  | nil => simp [hg, Text.expect?] at h
  | cons d ds =>
      simp only [hg, Text.expect?] at h
      split at h
      · simp_all
        omega
      · simp at h

theorem length_afterParameters? {t rest : Text} (h : afterParameters? t = some rest) :
    rest.length ≤ t.length := by
  simp only [afterParameters?, Option.bind_eq_bind, Option.bind_eq_some_iff] at h
  obtain ⟨r₁, h₁, r₂, h₂, h₃⟩ := h
  exact Nat.le_trans (length_expect?_skipGap h₃)
    (Nat.le_trans (length_expect?_skipGap h₂) (length_expect?_skipGap h₁))

theorem length_header? {t rest name : Text} (h : header? t = some (name, rest)) :
    rest.length ≤ t.length := by
  simp only [header?, Option.ite_none_right_eq_some, Option.map_eq_some_iff, Prod.mk.injEq] at h
  obtain ⟨_, _, h, _, rfl⟩ := h
  exact Nat.le_trans (length_afterParameters? h)
    (((List.dropWhile_sublist _).trans (List.dropWhile_sublist _)).length_le)

theorem length_after? {start t rest : Text} (h : Text.after? start t = some rest) :
    t.length = start.length + rest.length := by
  rw [Text.eq_append_of_after? h, List.length_append]

/-- The headers of a text from left to right, each with the text behind its colon. The search goes on
behind a header that was found, and behind the letters `def` where they start none. -/
def headers : Text → List (Text × Text)
  | [] => []
  | c :: cs =>
      match _hd : Text.after? ['d', 'e', 'f'] (c :: cs) with
      | none => headers cs
      | some rest =>
          match _hh : header? rest with
          | none => headers rest
          | some (name, behind) => (name, behind) :: headers behind
termination_by t => t.length
decreasing_by
  · simp
  · have := length_after? _hd
    simp only [List.length_cons] at this ⊢
    omega
  · have := length_after? _hd
    have := length_header? _hh
    simp only [List.length_cons] at *
    omega

/-- The procedure of a header that ends at an offset of a text. The header's colon is in front of the offset, on
the line that holds it. -/
def procedureAt (t : Text) (index : LineIndex) (name : Text) (stop : Nat) : Procedure :=
  ⟨String.ofList name, ⟨index.lineNumber stop, Text.blockFrom t stop⟩⟩

/-- The procedures of a script. -/
def ofText (t : Text) : Program :=
  let index := LineIndex.ofText t
  ⟨(headers t).map fun (name, behind) => procedureAt t index name (t.byteLength - behind.byteLength)⟩

def parse (script : String) : Program := ofText script.toList

/-- The last procedure with a name. -/
def find? (p : Program) (name : String) : Option Procedure :=
  (p.procedures.filter (·.name = name)).getLast?

def defines (p : Program) (name : String) : Bool := (p.find? name).isSome

/-- An ascending list of names with one more. -/
def insertName (name : String) : List String → List String
  | [] => [name]
  | n :: ns => if name < n then name :: n :: ns else if name = n then n :: ns else n :: insertName name ns

/-- The names that are defined, ascending. -/
def names (p : Program) : List String := (p.procedures.map (·.name)).foldr insertName []

end Program

/-- The bodies of a program's procedures, read for a run. -/
structure Code where
  bodies : List (String × List Line)
  deriving DecidableEq, Repr

namespace Code

/-- The code of a program, its last procedure first. -/
def ofProgram (p : Program) : Code := ⟨p.procedures.reverse.map fun q => (q.name, q.body.read)⟩

/-- The body of the last procedure with a name. -/
def body? (code : Code) (name : String) : Option (List Line) := code.bodies.lookup name

theorem lookup_bodies (ps : List Procedure) (name : String) :
    (ps.map fun q => (q.name, q.body.read)).lookup name =
      ((ps.filter (·.name = name)).head?).map (·.body.read) := by
  induction ps with
  | nil => rfl
  | cons q ps ih =>
      rw [List.map_cons, List.lookup_cons]
      by_cases h : q.name = name
      · rw [List.filter_cons_of_pos (by simp [h])]
        simp [h]
      · rw [List.filter_cons_of_neg (by simp [h]), ← ih]
        have hne : (name == q.name) = false := by simpa using fun e => h e.symm
        rw [hne]

/-- The code of a program holds, under each name, the body of the procedure that the name stands for. -/
theorem body?_ofProgram (p : Program) (name : String) :
    (ofProgram p).body? name = (p.find? name).map (·.body.read) := by
  rw [body?, ofProgram, lookup_bodies, Program.find?, List.filter_reverse, List.head?_reverse]

end Code

end GridRobot
