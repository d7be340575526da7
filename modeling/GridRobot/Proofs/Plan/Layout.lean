import Mathlib.Data.List.TakeWhile
import GridRobot.Proofs.Plan.Phrase
import GridRobot.Proofs.Script.Line

/-!
# The layout of a plan

Where the lines of a plan stand. The depth at which a statement is written changes neither how many rows
it takes up nor what they ask for; no row of a block stands left of the block; and a block ends where a
row further to the left comes next. `Line.block_lines` draws the conclusion for the lines of a script:
cutting blocks out by indentation finds the blocks of the plan, up to the blank lines behind its end.
-/

namespace GridRobot

/-! ### Rows -/

mutual

theorem Tree.length_rows (depth : Nat) : (t : Tree) → (t.rows depth).length = t.height
  | .call _ => rfl
  | .loop _ first more => by
      simp only [Tree.height, Tree.rows, List.length_cons, List.length_append]
      rw [Tree.length_rows _ first, Tree.length_rows 1 first, Forest.length_rows _ more,
        Forest.length_rows 1 more]
  | .branch _ first more others => by
      simp only [Tree.height, Tree.rows, List.length_cons, List.length_append]
      rw [Tree.length_rows _ first, Tree.length_rows 1 first, Forest.length_rows _ more,
        Forest.length_rows 1 more, Branches.length_rows depth others]

theorem Forest.length_rows (depth : Nat) : (f : Forest) → (f.rows depth).length = f.height
  | .nil => rfl
  | .cons first more => by
      simp only [Forest.height, Forest.rows, List.length_append]
      rw [Tree.length_rows depth first, Tree.length_rows 0 first, Forest.length_rows depth more,
        Forest.length_rows 0 more]

theorem Branches.length_rows (depth : Nat) :
    (others : Branches) → (others.rows depth).length = (others.rows 0).length
  | .done => rfl
  | .otherwise first more => by
      simp only [Branches.rows, List.length_cons, List.length_append]
      rw [Tree.length_rows _ first, Tree.length_rows 1 first, Forest.length_rows _ more,
        Forest.length_rows 1 more]
  | .elseIf _ first more others => by
      simp only [Branches.rows, List.length_cons, List.length_append]
      rw [Tree.length_rows _ first, Tree.length_rows 1 first, Forest.length_rows _ more,
        Forest.length_rows 1 more, Branches.length_rows depth others]

end

mutual

theorem Tree.le_depth (depth : Nat) : (t : Tree) → ∀ r ∈ t.rows depth, depth ≤ r.depth
  | .call _ => by simp [Tree.rows]
  | .loop _ first more => by
      intro r hr
      have hfirst := Tree.le_depth (depth + 1) first r
      have hmore := Forest.le_depth (depth + 1) more r
      simp only [Tree.rows, List.mem_cons, List.mem_append] at hr
      grind
  | .branch _ first more others => by
      intro r hr
      have hfirst := Tree.le_depth (depth + 1) first r
      have hmore := Forest.le_depth (depth + 1) more r
      have hothers := Branches.le_depth depth others r
      simp only [Tree.rows, List.mem_cons, List.mem_append] at hr
      grind

theorem Forest.le_depth (depth : Nat) : (f : Forest) → ∀ r ∈ f.rows depth, depth ≤ r.depth
  | .nil => by simp [Forest.rows]
  | .cons first more => by
      intro r hr
      have hfirst := Tree.le_depth depth first r
      have hmore := Forest.le_depth depth more r
      simp only [Forest.rows, List.mem_append] at hr
      grind

theorem Branches.le_depth (depth : Nat) :
    (others : Branches) → ∀ r ∈ others.rows depth, depth ≤ r.depth
  | .done => by simp [Branches.rows]
  | .otherwise first more => by
      intro r hr
      have hfirst := Tree.le_depth (depth + 1) first r
      have hmore := Forest.le_depth (depth + 1) more r
      simp only [Branches.rows, List.mem_cons, List.mem_append] at hr
      grind
  | .elseIf _ first more others => by
      intro r hr
      have hfirst := Tree.le_depth (depth + 1) first r
      have hmore := Forest.le_depth (depth + 1) more r
      have hothers := Branches.le_depth depth others r
      simp only [Branches.rows, List.mem_cons, List.mem_append] at hr
      grind

end

/-- A statement starts at its own depth, and not with what could be taken for a clause. -/
theorem Tree.head_rows (depth : Nat) (t : Tree) :
    ∃ ph rest, t.rows depth = ⟨depth, ph⟩ :: rest ∧ ph.statement.continuesBranch = false := by
  cases t with
  | call name => exact ⟨.call name, _, rfl, rfl⟩
  | loop condition => exact ⟨.loop condition, _, rfl, rfl⟩
  | branch condition => exact ⟨.branch condition, _, rfl, rfl⟩

theorem Forest.head_rows (depth : Nat) (f : Forest) : ∀ r ∈ (f.rows depth).head?, r.depth ≤ depth := by
  intro r hr
  cases f with
  | nil => cases hr
  | cons first more =>
      obtain ⟨ph, rest, hrows, -⟩ := Tree.head_rows depth first
      rw [Forest.rows, hrows] at hr
      cases hr
      exact Nat.le_refl depth

theorem Branches.head_rows (depth : Nat) (others : Branches) (next : Forest) :
    ∀ r ∈ (others.rows depth ++ next.rows depth).head?, r.depth ≤ depth := by
  cases others with
  | done => exact next.head_rows depth
  | _ =>
      intro r hr
      cases hr
      exact Nat.le_refl depth

/-! ### Blocks -/

/-- A block is found if nothing in it stands left of its first line; lines that are not left of it and
blank lines are taken along. -/
theorem takeBlock_append {α : Type} {margin? : α → Option Nat} {lead body : List α} {first : α}
    {base : Nat} (hlead : ∀ a ∈ lead, margin? a = none) (hfirst : margin? first = some base)
    (hbody : ∀ a ∈ body, (margin? a).all (base ≤ ·) = true)
    (rest : List α) :
    takeBlock margin? (lead ++ (first :: body ++ rest)) =
      lead ++ (first :: body ++ rest.takeWhile fun a => (margin? a).all (base ≤ ·)) := by
  have hbase : (lead ++ (first :: body ++ rest)).findSome? margin? = some base := by
    rw [List.findSome?_append, List.findSome?_eq_none_iff.2 hlead]
    simp [hfirst]
  have hall : ∀ a ∈ lead, (margin? a).all (base ≤ ·) = true := by
    intro a ha
    rw [hlead a ha]
    rfl
  have hhead : ∀ a ∈ first :: body, (margin? a).all (base ≤ ·) = true := by
    simpa [hfirst] using hbody
  rw [takeBlock, hbase]
  dsimp only
  rw [List.takeWhile_append_of_pos hall, List.takeWhile_append_of_pos hhead]

/-- The lines that rows are read as, numbered from `number` on. -/
def Row.lines (number : Nat) : List Row → List Line
  | [] => []
  | r :: rows => r.line number :: lines (number + 1) rows

theorem Row.lines_append (number : Nat) (above below : List Row) :
    Row.lines number (above ++ below) =
      Row.lines number above ++ Row.lines (number + above.length) below := by
  induction above generalizing number with
  | nil => rfl
  | cons r above ih =>
      rw [List.cons_append, Row.lines, ih, Row.lines, List.length_cons, List.cons_append,
        Nat.add_right_comm, Nat.add_assoc]

theorem Row.mem_lines {number : Nat} {rows : List Row} {l : Line} (h : l ∈ Row.lines number rows) :
    ∃ r ∈ rows, ∃ n, l = r.line n := by
  induction rows generalizing number with
  | nil => cases h
  | cons r rows ih =>
      rcases List.mem_cons.1 h with rfl | h
      · exact ⟨r, List.mem_cons_self, number, rfl⟩
      · obtain ⟨r', hr', n, rfl⟩ := ih h
        exact ⟨r', List.mem_cons_of_mem r hr', n, rfl⟩

theorem Row.isCounted_line (number : Nat) (r : Row) : (r.line number).isCounted = true := by
  obtain ⟨depth, ph⟩ := r
  cases ph <;> rfl

/-- Lines that show statements, the first of them on the line `number`, with blank lines around them. -/
def Forest.Shown (number : Nat) (f : Forest) (lines : List Line) : Prop :=
  ∃ depth lead tail, (∀ l ∈ lead, l.Blank) ∧ (∀ l ∈ tail, l.Blank) ∧
    lines = lead ++ (Row.lines number (f.rows depth) ++ tail)

/-- Lines that show statements together with the number of their first line. -/
abbrev Forest.ShownAt (located : Nat × Forest) (lines : List Line) : Prop :=
  located.2.Shown located.1 lines

theorem Forest.shown_lines (depth number : Nat) (f : Forest) {tail : List Line}
    (htail : ∀ l ∈ tail, l.Blank) : f.Shown number (Row.lines number (f.rows depth) ++ tail) :=
  ⟨depth, [], tail, List.forall_mem_nil _, htail, rfl⟩

theorem Forest.Shown.any_isCounted {number : Nat} {first : Tree} {more : Forest} {lines : List Line}
    (h : (Forest.cons first more).Shown number lines) : lines.any Line.isCounted = true := by
  obtain ⟨depth, lead, tail, -, -, rfl⟩ := h
  obtain ⟨ph, rest, hrows, -⟩ := Tree.head_rows depth first
  simp [Forest.rows, hrows, Row.lines, Row.isCounted_line]

theorem Forest.Shown.eq_nil {number : Nat} {f : Forest} (h : f.Shown number []) : f = .nil := by
  cases f with
  | nil => rfl
  | cons first more => cases h.any_isCounted

theorem Forest.Shown.of_not_counted {number : Nat} {f : Forest} {l : Line} {rest : List Line}
    (h : f.Shown number (l :: rest)) (hl : l.isCounted = false) : f.Shown number rest := by
  obtain ⟨depth, lead, tail, hlead, htail, hlines⟩ := h
  cases lead with
  | cons l' lead =>
      cases hlines
      exact ⟨depth, lead, tail, (List.forall_mem_cons.1 hlead).2, htail, rfl⟩
  | nil =>
      cases f with
      | nil =>
          cases hlines
          exact ⟨depth, [], rest, hlead, (List.forall_mem_cons.1 htail).2, rfl⟩
      | cons first more =>
          obtain ⟨ph, rows, hrows, -⟩ := Tree.head_rows depth first
          rw [Forest.rows, hrows] at hlines
          cases hlines
          cases hl.symm.trans (Row.isCounted_line number ⟨depth, ph⟩)

theorem Forest.Shown.exists_tree {number : Nat} {f : Forest} {l : Line} {rest : List Line}
    (h : f.Shown number (l :: rest)) (hl : l.isCounted = true) :
    ∃ depth t next tail, f = .cons t next ∧ (∀ l ∈ tail, l.Blank) ∧
      l :: rest = Row.lines number ((Forest.cons t next).rows depth) ++ tail := by
  obtain ⟨depth, lead, tail, hlead, htail, hlines⟩ := h
  have hblank : ¬ l.Blank := fun hblank => by cases hl.symm.trans hblank.isCounted
  cases lead with
  | cons l' lead =>
      cases hlines
      exact absurd (hlead l List.mem_cons_self) hblank
  | nil =>
      cases f with
      | nil =>
          cases hlines
          exact absurd (htail l List.mem_cons_self) hblank
      | cons t next => exact ⟨depth, t, next, tail, rfl, htail, hlines⟩

theorem Line.block_lines_append (depth number : Nat) (first : Tree) (more : Forest) (rest : List Line) :
    Line.block (Row.lines number ((Forest.cons first more).rows depth) ++ rest) =
      Row.lines number ((Forest.cons first more).rows depth) ++
        rest.takeWhile fun l => (l.margin?).all (4 * depth ≤ ·) := by
  have hdepth := Forest.le_depth depth (.cons first more)
  obtain ⟨ph, rows, hrows, -⟩ := Tree.head_rows depth first
  rw [Forest.rows, hrows, List.cons_append] at hdepth ⊢
  have hbody : ∀ l ∈ Row.lines (number + 1) (rows ++ more.rows depth),
      (l.margin?).all (4 * depth ≤ ·) = true := by
    intro l hl
    obtain ⟨r, hr, n, rfl⟩ := Row.mem_lines hl
    have hle := hdepth r (List.mem_cons_of_mem _ hr)
    simp only [Row.line, Option.all_some, decide_eq_true_eq]
    omega
  have hfirst : (Row.line number ⟨depth, ph⟩).margin? = some (4 * depth) := rfl
  exact takeBlock_append (List.forall_mem_nil _) hfirst hbody rest

/-- The block behind a header is the block of the plan, whatever comes next at the header's depth.
Blank lines behind the last row of a procedure go with the innermost block. -/
theorem Line.block_lines (depth number : Nat) (first : Tree) (more : Forest) {next : List Row}
    {tail : List Line} (hnext : ∀ r ∈ next.head?, r.depth ≤ depth) (htail : ∀ l ∈ tail, l.Blank) :
    (Forest.cons first more).Shown number
        (Line.block (Row.lines number ((Forest.cons first more).rows (depth + 1) ++ next) ++ tail)) ∧
      ∃ tail', (∀ l ∈ tail', l.Blank) ∧
        Line.afterBlock (Row.lines number ((Forest.cons first more).rows (depth + 1) ++ next) ++ tail) =
          Row.lines (number + (Forest.cons first more).height) next ++ tail' := by
  rw [Row.lines_append, Forest.length_rows, List.append_assoc, Line.afterBlock, Line.block_lines_append]
  cases next with
  | nil =>
      have hall : tail.takeWhile (fun l => (l.margin?).all (4 * (depth + 1) ≤ ·)) = tail := by
        rw [List.takeWhile_eq_self_iff]
        intro l hl
        rw [(htail l hl).margin?]
        rfl
      rw [Row.lines, List.nil_append, hall]
      refine ⟨Forest.shown_lines (depth + 1) number _ htail, [], List.forall_mem_nil _, ?_⟩
      rw [List.drop_length]
      rfl
  | cons r next =>
      have hr : r.depth ≤ depth := hnext r rfl
      have hstop (n : Nat) (rest : List Line) :
          (r.line n :: rest).takeWhile (fun l => (l.margin?).all (4 * (depth + 1) ≤ ·)) = [] := by
        apply List.takeWhile_cons_of_neg
        simp only [Row.line, Option.all_some, decide_eq_true_eq]
        omega
      rw [Row.lines, List.cons_append, hstop, List.append_nil]
      refine ⟨?_, tail, htail, List.drop_left⟩
      simpa using Forest.shown_lines (depth + 1) number (.cons first more) (List.forall_mem_nil _)

end GridRobot
