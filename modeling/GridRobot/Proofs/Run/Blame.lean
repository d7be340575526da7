import GridRobot.Proofs.Run.Invariant
import GridRobot.Proofs.Script.Place

/-!
# Failures name the guilty line

The line that a failure reports is the line of the script that holds the statement at fault. Two facts come
together here: a run fails at a line of its code for a reason that lies in what the line asks for
(`runScript_error`), and a line of the code was read off the line of the script that has its number
(`Code.standsOn_of_body?`). What is left is to say of each error which statements can bring it about.
-/

namespace GridRobot

/-- What a statement has to do with an error that is reported for the line it stands on. -/
def RunError.Concerns (program : Program) (number : Nat) (statement : Statement) : RunError → Prop
  | .noEntryPoint => False
  | .unknownCommand name line =>
      line = number ∧ statement = .call name ∧ Command.ofName? name = none ∧
        program.defines name = false ∧ name ∉ idleCalls ∧ Condition.ofName? name = none
  | .unknownCondition condition line =>
      line = number ∧ Condition.ofName? condition = none ∧
        (statement = .whileLoop condition ∨ statement = .ifBranch condition ∨
          statement = .elifBranch condition)
  | .movementBlocked _ => statement = .call "move"
  | .noBeeperHere _ => statement = .call "pick_beeper"
  | .bagEmpty => statement = .call "put_beeper"
  | .stepLimit _ => True
  | .emptyLoop _ => ∃ condition, statement = .whileLoop condition

theorem Command.name_of_ofName? {name : String} {action : Command} (h : ofName? name = some action) :
    name = action.name := by
  have hname := List.find?_some h
  exact (beq_iff_eq.1 hname).symm

theorem Program.defines_of_body? {program : Program} {name : String}
    (h : (Code.ofProgram program).body? name = none) : program.defines name = false := by
  rw [Code.body?_ofProgram, Option.map_eq_none_iff] at h
  rw [defines, h]
  rfl

theorem RunError.concerns_of_refuses {script : String} {limit : Nat} {l : Line} {p : Progress Unit}
    {error : RunError} (h : (Setting.ofScript script limit).Refuses l p error) :
    error.Concerns (Program.parse script) l.number l.statement ∧ l.statement ≠ .skip := by
  cases h with
  | limit hl =>
      refine ⟨trivial, ?_⟩
      intro hskip
      rw [Line.isCounted, hskip] at hl
      cases hl
  | condition _ hstatement hname =>
      refine ⟨⟨rfl, hname, hstatement⟩, ?_⟩
      intro hskip
      rw [hskip] at hstatement
      rcases hstatement with h | h | h <;> cases h
  | @loop condition _ hstatement =>
      refine ⟨⟨condition, hstatement⟩, ?_⟩
      intro hskip
      rw [hskip] at hstatement
      cases hstatement
  | name _ hstatement haction hbody hidle hcondition =>
      refine ⟨⟨rfl, hstatement, haction, Program.defines_of_body? hbody, hidle, hcondition⟩, ?_⟩
      intro hskip
      rw [hskip] at hstatement
      cases hstatement
  | action _ hstatement haction herror =>
      rw [Command.name_of_ofName? haction] at hstatement
      constructor
      · rcases Command.apply_error herror with ⟨rfl, rfl⟩ | ⟨rfl, rfl⟩ | ⟨rfl, rfl⟩
        all_goals exact hstatement
      · intro hskip
        rw [hskip] at hstatement
        cases hstatement

/-- A script that fails has no entry point, or a statement on one of its lines that the error is about. -/
theorem standsOn_of_runScript_error {script : String} {world : World} {limit : Nat} {failure : Failure}
    (hrun : runScript script world limit = .error failure) :
    failure = ⟨.noEntryPoint, none, .untouched world⟩ ∨
      ∃ number s, failure.line = some number ∧ Text.StandsOn script.toList number s ∧ Statement.read s ≠ .skip ∧
        failure.error.Concerns (Program.parse script) number (.read s) := by
  rcases runScript_error hrun with hnone | ⟨l, p, hfailure, hrefuses, hline, name, body, hbody, hl⟩
  · exact .inl hnone
  · obtain ⟨hconcerns, hskip⟩ := RunError.concerns_of_refuses hrefuses
    obtain ⟨s, hstands, hstatement⟩ := Code.standsOn_of_body? hbody hl
    rw [hstatement] at hconcerns hskip
    refine .inr ⟨l.number, s, ?_, hstands, hskip, hconcerns⟩
    rw [hfailure]
    exact hline

/-- The number of a line that an error holds itself. -/
def RunError.line? : RunError → Option Nat
  | .unknownCommand _ line | .unknownCondition _ line => some line
  | .noEntryPoint | .movementBlocked _ | .noBeeperHere _ | .bagEmpty | .stepLimit _ | .emptyLoop _ => none

theorem RunError.Concerns.line_eq {program : Program} {number line : Nat} {statement : Statement}
    {error : RunError} (h : error.Concerns program number statement) (hline : error.line? = some line) :
    line = number := by
  cases error with
  | unknownCommand | unknownCondition => exact (Option.some.inj hline).symm.trans h.1
  | noEntryPoint | movementBlocked | noBeeperHere | bagEmpty | stepLimit | emptyLoop => cases hline

/-- With fewer than `UInt32.size - 1` line feeds in a script the numbers of lines that a failure reports are words,
the one it is found at as well as the one inside its error. -/
theorem lines_lt_of_runScript_error {script : String} (hfeeds : Text.breaks script.toList < UInt32.size - 1)
    {world : World} {limit : Nat} {failure : Failure} (hrun : runScript script world limit = .error failure) :
    (∀ line, failure.line = some line → line < UInt32.size) ∧
      ∀ line, failure.error.line? = some line → line < UInt32.size := by
  rcases standsOn_of_runScript_error hrun with rfl | ⟨number, s, hnumber, hstands, -, hconcerns⟩
  · exact ⟨fun _ h => (by cases h), fun _ h => (by cases h)⟩
  · have hlt := hstands.number_lt hfeeds
    constructor
    · intro line hline
      rw [hnumber] at hline
      cases hline
      exact hlt
    · intro line hline
      rw [hconcerns.line_eq hline]
      exact hlt

/-- A failure reports no line if and only if there was no entry point to start from. Otherwise it reports a
line of the script on which, alone or behind a header, the statement stands that the error is about. -/
theorem runScript_error_names_line {script : String} {world : World} {limit : Nat} {failure : Failure}
    (hrun : runScript script world limit = .error failure) :
    (failure.line = none ↔ failure.error = .noEntryPoint) ∧
      (failure.error ≠ .noEntryPoint →
        ∃ number line s, failure.line = some number ∧
          1 ≤ number ∧ number ≤ (Text.lines script.toList).length ∧
          (Text.lines script.toList)[number - 1]? = some line ∧ s <:+ line ∧
          Text.StandsOn script.toList number s ∧ Statement.read s ≠ .skip ∧
          failure.error.Concerns (Program.parse script) number (.read s)) := by
  rcases standsOn_of_runScript_error hrun with rfl | ⟨number, s, hnumber, hstands, hskip, hconcerns⟩
  · exact ⟨⟨fun _ => rfl, fun _ => rfl⟩, fun h => absurd rfl h⟩
  · obtain ⟨hpos, hle, line, hscript, hsuffix⟩ := hstands.exists_line
    refine ⟨⟨fun hnone => ?_, fun herror => ?_⟩, fun _ => ?_⟩
    · rw [hnumber] at hnone
      cases hnone
    · rw [herror] at hconcerns
      exact hconcerns.elim
    · exact ⟨number, line, s, hnumber, hpos, hle, hscript, hsuffix, hstands, hskip, hconcerns⟩

theorem runScript_error_names_line_move :
    let script := "def main():move()"
    ∃ failure, runScript script .initial 4 = .error failure ∧ failure.line = some 1 ∧
      ∃ s, Text.StandsOn script.toList 1 s ∧ Statement.read s ≠ .skip ∧
        failure.error.Concerns (Program.parse script) 1 (.read s) := by
  intro script
  have hentry : ((Code.ofProgram (Program.parse script)).body? entryPoint).isSome = true := by decide +kernel
  have hends : ((Machine.load script .initial).runWithin (.ofScript script 4) 1).any
      (fun result => !result.isOk && (ending id result).line == some 1) = true := by decide +kernel
  obtain ⟨result, hrun, htest⟩ := exists_ofEnd_of_runWithin hentry hends
  cases result with
  | ok p => cases htest
  | error stop =>
      have hline : stop.progress.line = some 1 := beq_iff_eq.1 htest
      obtain ⟨hnone, hnames⟩ := runScript_error_names_line hrun
      have herror : stop.error ≠ .noEntryPoint := by
        intro herror
        have hnot : stop.progress.line = none := hnone.2 herror
        rw [hline] at hnot
        cases hnot
      obtain ⟨number, line, s, hnumber, -, -, -, -, hstands, hskip, hconcerns⟩ := hnames herror
      cases hnumber.symm.trans hline
      exact ⟨.ofStop stop, hrun, hline, s, hstands, hskip, hconcerns⟩

end GridRobot
