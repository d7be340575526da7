import GridRobot.Proofs.Lint.EntryPoint
import GridRobot.Proofs.Script.Block
import GridRobot.Proofs.Script.Line
import GridRobot.Proofs.Script.Place

/-!
# Procedures that a check keeps apart

The body of a procedure runs on until a line stands left of its margin, so a body whose margin is zero
takes in the procedures below it. The margin is set by the first line of the body that is not blank. A check
looks at two lines at a time and reports a line that stands in column zero right below a header. Where
that is the line that sets the margin, a script in which no error is found has a margin to tell its
procedures apart by (`bodies_stay_apart`). The check sees neither past a gap below the header, nor what
stands behind the colon, nor a header that does not start its line.
-/

namespace GridRobot

/-! ### Margins -/

theorem margin?_ne_zero_of_mem_takeBlock {α : Type} {margin? : α → Option Nat} {items : List α}
    (hmargin : items.findSome? margin? ≠ some 0) : ∀ a ∈ takeBlock margin? items, margin? a ≠ some 0 := by
  intro a ha hzero
  obtain ⟨base, hbase, hle⟩ := margin_of_mem_takeBlock ha hzero
  rw [Nat.le_zero.1 hle] at hbase
  exact hmargin hbase

/-- The line that sets the margin of a block is the first that has one. -/
theorem getElem?_findIdx_of_findSome? {α β : Type} {f : α → Option β} {items : List α} {b : β}
    (h : items.findSome? f = some b) : ∃ a, items[items.findIdx (f · |>.isSome)]? = some a ∧ f a = some b := by
  induction items with
  | nil => cases h
  | cons a items ih =>
      rw [List.findSome?_cons] at h
      rw [List.findIdx_cons]
      cases ha : f a with
      | none =>
          rw [ha] at h
          exact ih h
      | some b' =>
          rw [ha] at h
          exact ⟨a, rfl, ha.trans h⟩

theorem Text.margin?_ne_zero_of_head? {t : Text} {c : Char} (hc : isBlank c = true) (h : t.head? = some c) :
    t.margin? ≠ some 0 := by
  cases t with
  | nil => cases h
  | cons d t =>
      cases h
      unfold margin? indentation
      rw [List.takeWhile_cons_of_pos hc]
      split <;> simp

/-! ### Findings -/

namespace Lint

theorem indentFindings_subset {lines : List (Nat × Text)} {i n n' : Nat} {line next : Text}
    (hline : lines[i]? = some (n, line)) (hnext : lines[i + 1]? = some (n', next)) :
    indentFindings line (some (n', next)) ⊆ lineFindings lines := by
  induction lines generalizing i with
  | nil => cases hline
  | cons first rest ih =>
      intro d hd
      obtain ⟨number, text⟩ := first
      rw [lineFindings, List.mem_append, List.mem_append]
      cases i with
      | zero =>
          cases hline
          rw [List.getElem?_cons_succ, ← List.head?_eq_getElem?] at hnext
          rw [hnext]
          exact .inl (.inr hd)
      | succ i => exact .inr (ih hline hnext hd)

/-- Where no error is found, a line right below a header does not stand in column zero. -/
theorem margin?_ne_zero_of_isHeader {script : String} (hlint : (lintScript script).totalErrors = 0)
    {i : Nat} {line next : Text} (hline : (Text.lines script.toList)[i]? = some line)
    (hnext : (Text.lines script.toList)[i + 1]? = some next) (hheader : isHeader line.trim = true) :
    next.margin? ≠ some 0 := by
  have hlacks : lacksIndent line.dropReturns next.dropReturns = false := by
    apply Bool.eq_false_iff.2
    intro hlacks
    have hmem : (⟨.expectedIndent, "expected an indented block", some (i + 1 + 1), none⟩ : Diagnostic) ∈
        findings script.toList := by
      apply List.mem_append_right
      apply @indentFindings_subset _ i (i + 1) (i + 1 + 1) line.dropReturns next.dropReturns
      · rw [Text.numberedLines, List.getElem?_mapIdx, hline]
        rfl
      · rw [Text.numberedLines, List.getElem?_mapIdx, hnext]
        rfl
      · rw [indentFindings, if_pos hlacks]
        exact List.mem_singleton.2 rfl
    exact (Diagnostics.totalErrors_ofList_eq_zero_iff _).1 hlint _ hmem rfl
  have htrim : line.dropReturns.trim = line.trim := Text.apply_dropReturns (Text.trim_concat rfl) line
  have hmargin : next.dropReturns.margin? = next.margin? :=
    Text.apply_dropReturns (Text.margin?_concat rfl) next
  rw [lacksIndent, htrim, hheader, Bool.true_and] at hlacks
  rw [← hmargin]
  cases hempty : next.dropReturns.isEmptyLine with
  | true =>
      rw [Text.margin?, hempty]
      intro h
      cases h
  | false =>
      rw [hempty] at hlacks
      by_cases hspace : next.dropReturns.head? = some ' '
      · exact Text.margin?_ne_zero_of_head? rfl hspace
      · have htab : next.dropReturns.head? = some '\t' := by simpa [hspace] using hlacks
        exact Text.margin?_ne_zero_of_head? rfl htab

/-- Whether a check takes the line on which the header of a procedure ends for a header. -/
def sees (script : Text) (q : Procedure) : Bool :=
  (script.lines[q.body.firstLine - 1]?).any fun line => isHeader line.trim

end Lint

/-! ### Bodies -/

/-- Below the line on which the header of a procedure ends comes the second line of its body. -/
theorem Program.getElem?_lines_of_body {script : String} {q : Procedure}
    (hq : q ∈ (Program.parse script).procedures) {e : Text} (he : q.body.lines[1]? = some e) :
    (Text.lines script.toList)[q.body.firstLine - 1 + 1]? = some e := by
  rw [parse, ofText_eq] at hq
  obtain ⟨⟨name, behind⟩, hheaders, rfl⟩ := List.mem_map.1 hq
  obtain ⟨before, header, -, hscript⟩ := Program.isHeader_of_mem_headers hheaders
  obtain ⟨above, start, hlines, habove⟩ := Text.lines_append (before ++ header) behind
  have hfirst : (procedureBehind script.toList name behind).body.firstLine - 1 = above.length := by
    rw [habove, procedureBehind, Nat.add_sub_cancel, hscript, Text.breaks, List.count_append]
    exact Nat.add_sub_cancel _ _
  have hbehind : behind.lines[1]? = some e := getElem?_of_takeBlock he
  rw [hfirst, hscript, hlines, List.getElem?_append_right (Nat.le_add_right _ 1), Nat.add_sub_cancel_left]
  exact hbehind

/-- In a script in which a check finds no error, procedures keep to themselves: where the check takes the
line of a header for one, and the line that sets the margin of the body stands right below it or not in
column zero, no line of the body stands in column zero. What sets the margin then stands where the check has looked. -/
theorem bodies_stay_apart (script : String) (hlint : (lintScript script).totalErrors = 0) (q : Procedure)
    (hq : q ∈ (Program.parse script).procedures) (hsees : Lint.sees script.toList q = true)
    (hmargin : q.body.lines.findSome? Text.margin? = some 0 →
      q.body.lines.findIdx (·.margin?.isSome) = 1) :
    ∀ e ∈ q.body.lines, e.margin? ≠ some 0 := by
  have hbody : q.body.lines.findSome? Text.margin? ≠ some 0 := by
    intro hzero
    obtain ⟨e, he, hset⟩ := getElem?_findIdx_of_findSome? hzero
    rw [hmargin hzero] at he
    obtain ⟨line, hline, hheader⟩ := (Option.any_eq_true _ _).1 hsees
    exact Lint.margin?_ne_zero_of_isHeader hlint hline (Program.getElem?_lines_of_body hq he) hheader hset
  rw [Program.parse, Program.ofText_eq] at hq
  obtain ⟨⟨name, behind⟩, -, rfl⟩ := List.mem_map.1 hq
  apply margin?_ne_zero_of_mem_takeBlock
  rwa [← findSome?_takeBlock]

theorem bodies_stay_apart_below :
    let script := "def main():\n\n    turn()\ndef turn():\n    turn_left()"
    (lintScript script).totalErrors = 0 ∧
      ∀ q ∈ (Program.parse script).procedures, ∀ e ∈ q.body.lines, e.margin? ≠ some 0 := by
  intro script
  have hlint : (lintScript script).totalErrors = 0 := by decide +kernel
  have hbodies : ∀ q ∈ (Program.parse script).procedures,
      Lint.sees script.toList q = true ∧ q.body.lines.findSome? Text.margin? ≠ some 0 := by decide +kernel
  refine ⟨hlint, fun q hq => ?_⟩
  obtain ⟨hsees, hmargin⟩ := hbodies q hq
  exact bodies_stay_apart script hlint q hq hsees fun hzero => absurd hzero hmargin

/-- A gap below the header, a remark right behind its colon, a header inside a remark and a line that
is set in by a no-break space all get past the check. -/
theorem bodies_run_on :
    let scripts := ["def main():\n\nturn()\ndef turn():\n    turn_left()",
      "def main():# go\n    turn()\ndef turn():\n    turn_left()",
      "# def main():\nturn()\ndef turn():\n    turn_left()",
      "def main():\n turn()\n\u00a0turn()\ndef turn():\n    turn_left()"]
    (∀ script ∈ scripts, (lintScript script).totalErrors = 0) ∧
      ∀ script ∈ scripts, ∃ q ∈ (Program.parse script).procedures,
        ∃ e ∈ q.body.lines.tail, e.isEmptyLine = false ∧ e.head? ≠ some ' ' ∧ e.head? ≠ some '\t' := by
  decide +kernel

end GridRobot
