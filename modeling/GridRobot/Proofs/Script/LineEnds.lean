import GridRobot.Lint.Check
import GridRobot.Proofs.Script.Widened
import GridRobot.World.Declaration

/-!
# Line ends and blank lines

Two things that an editor may do to a text. It may end its lines with a carriage return and a line feed,
and it may put a blank line between two others. In a script both are gaps in front of line feeds, so runs
are covered by what is known of widened scripts. World files are read and scripts are checked line by line,
and there a carriage return at the end of a line is dropped before anything is read off it
(`Text.map_lines_crlf`).
-/

namespace GridRobot

/-! ### Carriage returns -/

namespace Text

/-- The text with a carriage return in front of each line feed. -/
def crlf (t : Text) : Text := t.flatMap fun c => if c = '\n' then ['\r', '\n'] else [c]

theorem crlf_cons_feed (t : Text) : crlf ('\n' :: t) = '\r' :: '\n' :: crlf t := rfl

theorem crlf_cons_of_ne {c : Char} (hc : c ≠ '\n') (t : Text) : crlf (c :: t) = c :: crlf t := by
  rw [crlf, List.flatMap_cons, if_neg hc]
  rfl

theorem widened_crlf (last : Nat) (t : Text) : Widened id last t (crlf t) := by
  induction t with
  | nil => exact .nil
  | cons c t ih =>
      by_cases hc : c = '\n'
      · subst hc
        show Widened id last ('\n' :: t) (['\r'] ++ '\n' :: crlf t)
        exact .feed (List.forall_mem_singleton.2 rfl) (fun n _ => rfl) ih
      · rw [crlf_cons_of_ne hc]
        exact .char hc ih

/-- What is read off each line is the same if a carriage return at the end of a line does not matter to it. -/
theorem map_lines_crlf {α : Type} {f : Text → α} (hf : ∀ l, f (l ++ ['\r']) = f l) (t : Text) :
    (lines (crlf t)).map f = (lines t).map f := by
  have hstart (start : Text) (hstart : '\n' ∉ start) :
      (lines (start ++ crlf t)).map f = (lines (start ++ t)).map f := by
    induction t generalizing start with
    | nil => rfl
    | cons c t ih =>
        by_cases hc : c = '\n'
        · subst hc
          have hreturn : '\n' ∉ start ++ ['\r'] := by simp [hstart]
          have hbelow := ih [] List.not_mem_nil
          rw [crlf_cons_feed, List.append_cons, lines, lines, pieces_append_cons hreturn,
            pieces_append_cons hstart, List.map_cons, List.map_cons, hf]
          exact congrArg (f start :: ·) hbelow
        · have hmore := ih (start ++ [c]) (by simp [hstart, Ne.symm hc])
          rw [← List.append_cons, ← List.append_cons] at hmore
          rw [crlf_cons_of_ne hc]
          exact hmore
  exact hstart [] List.not_mem_nil

theorem count_crlf {c : Char} (hc : c ≠ '\r') (t : Text) : (crlf t).count c = t.count c := by
  induction t with
  | nil => rfl
  | cons d t ih =>
      by_cases hd : d = '\n'
      · subst hd
        rw [crlf_cons_feed, List.count_cons_of_ne (Ne.symm hc), List.count_cons, List.count_cons, ih]
      · rw [crlf_cons_of_ne hd, List.count_cons, List.count_cons, ih]

theorem isEmptyLine_crlf (t : Text) : isEmptyLine (crlf t) = isEmptyLine t := by
  induction t with
  | nil => rfl
  | cons c t ih =>
      unfold isEmptyLine at ih ⊢
      by_cases hc : c = '\n'
      · subst hc
        rw [crlf_cons_feed, List.all_cons, List.all_cons, List.all_cons, ih]
        rfl
      · rw [crlf_cons_of_ne hc, List.all_cons, List.all_cons, ih]

theorem numberedLines_crlf (t : Text) : numberedLines (crlf t) = numberedLines t := by
  have hreturn (l : Text) : dropReturns (l ++ ['\r']) = dropReturns l := by simp [dropReturns]
  have hnumbered (t : Text) :
      numberedLines t = ((lines t).map dropReturns).mapIdx fun i l => (i + 1, l) := by
    rw [numberedLines, List.mapIdx_eq_zipIdx_map, List.mapIdx_eq_zipIdx_map, List.zipIdx_map, List.map_map]
    rfl
  rw [hnumbered, hnumbered, map_lines_crlf hreturn]

end Text

/-- The text with carriage returns in front of its line feeds. -/
def crlf (s : String) : String := String.ofList (Text.crlf s.toList)

theorem toList_crlf (s : String) : (crlf s).toList = Text.crlf s.toList := String.toList_ofList

/-! ### Worlds -/

theorem World.parse_crlf (s : String) : World.parse (crlf s) = World.parse s := by
  have hreturn (l : Text) : Declaration.read? (l ++ ['\r']) = Declaration.read? l := by
    rw [Declaration.read?, Declaration.parts?, Text.trim_concat rfl]
    rfl
  have hlines := Text.map_lines_crlf hreturn s.toList
  have hread (t : Text) : (Text.lines t).filterMap Declaration.read? =
      ((Text.lines t).map Declaration.read?).filterMap id := by
    rw [List.filterMap_map]
    rfl
  rw [World.parse, toList_crlf, World.ofText, hread, hlines, ← hread]
  rfl

/-! ### Checks -/

theorem Program.defines_iff {p : Program} {name : String} :
    p.defines name = true ↔ name ∈ p.procedures.map (·.name) := by
  simp [Program.defines, Program.find?]

theorem Program.defines_crlf (t : Text) (name : String) :
    (ofText (Text.crlf t)).defines name = (ofText t).defines name := by
  have hprocedures := (Text.widened_crlf (t.breaks + 1) t).procedures rfl
  have hnames := congrArg (List.map Prod.fst) hprocedures
  rw [List.map_map, List.map_map] at hnames
  change (ofText t).procedures.map (·.name) = (ofText (Text.crlf t)).procedures.map (·.name) at hnames
  rw [Bool.eq_iff_iff, defines_iff, defines_iff, hnames]

theorem lintScript_crlf (s : String) : lintScript (crlf s) = lintScript s := by
  have hfindings (t : Text) : Lint.findings (Text.crlf t) = Lint.findings t := by
    rw [Lint.findings, Lint.entryPointFindings, Lint.parenthesisFindings, Text.isEmptyLine_crlf,
      Program.defines_crlf, Text.numberedLines_crlf, Text.count_crlf (by decide),
      Text.count_crlf (by decide)]
    rfl
  rw [lintScript, toList_crlf, hfindings]
  rfl

/-! ### Runs -/

theorem runScript_crlf (s : String) (world : World) (limit : Nat) :
    runScript (crlf s) world limit = runScript s world limit := by
  have hwide : Text.Widened id (Text.breaks s.toList + 1) s.toList (crlf s).toList := by
    rw [toList_crlf]
    exact Text.widened_crlf _ _
  rw [hwide.runScript rfl, RunResult.renumber_id]

/-- Line ends do not matter: not to the world that a text describes, not to any run of a script, and not to
what a check finds in it. -/
theorem line_ends_change_nothing (s : String) :
    World.parse (crlf s) = World.parse s ∧
      (∀ world limit, runScript (crlf s) world limit = runScript s world limit) ∧
      lintScript (crlf s) = lintScript s :=
  ⟨World.parse_crlf s, runScript_crlf s, lintScript_crlf s⟩

/-! ### Blank lines -/

/-- The number of a line once another one has been put in behind the first `count`. -/
def numberBelow (count n : Nat) : Nat := if count < n then n + 1 else n

/-- Numbers up to that of the last line above stay, and all that follow grow by one. -/
theorem Text.widened_blank_line {blank : Text} (hblank : ∀ c ∈ blank, c = ' ' ∨ c = '\t')
    (above below : Text) :
    Widened (numberBelow above.lines.length) (breaks (above ++ '\n' :: below) + 1)
      (above ++ '\n' :: below) (above ++ (('\n' :: blank) ++ '\n' :: below)) := by
  have hgap : ∀ c ∈ '\n' :: blank, isGap c = true := by
    intro c hc
    rcases List.mem_cons.1 hc with rfl | hc
    · rfl
    · rcases hblank c hc with rfl | rfl <;> rfl
  have hbreaks : breaks ('\n' :: blank) = 1 := by
    have hnone : blank.count '\n' = 0 := by
      apply List.count_eq_zero.2
      intro hmem
      rcases hblank _ hmem with h | h <;> cases h
    rw [breaks_cons_feed, breaks, hnone]
  rw [length_lines, breaks_append, breaks_cons_feed]
  apply Widened.append
  · refine .feed hgap ?_ (Widened.of_number below ?_)
    · intro n hn
      rw [hbreaks, numberBelow, numberBelow, if_pos (by omega), if_neg (by omega)]
    · intro n _ hhigh
      rw [numberBelow, numberBelow, if_pos (by omega), if_pos (by omega)]
  · intro n hlow _
    rw [breaks_cons_feed] at hlow
    rw [numberBelow, numberBelow, if_neg (by omega), if_neg (by omega)]

end GridRobot
