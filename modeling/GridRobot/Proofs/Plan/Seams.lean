import GridRobot.Proofs.Plan.Script
import GridRobot.Proofs.Script.Remark

/-!
# Lines of a plan apart

A line of a plan can be told from its text alone: it is a row or the header of a procedure. What is read off
it does not depend on the lines around it, and no header runs across the line feed in front of it
(`Program.seam_row`, `Program.seam_header`). So the headers of the script are found line by line
(`Program.mem_headers_below`), and a line that holds none may be put in between two others
(`Program.headers_insert`).
-/

namespace GridRobot

/-! ### Lines of a plan -/

/-- A line of a plan's script, or an empty one behind its end. -/
inductive Text.OfPlan : Text → Prop where
  | blank : OfPlan []
  | row (r : Row) : OfPlan r.text
  | header (r : Routine) : OfPlan r.header

theorem Plan.mem_lines (plan : Plan) {l : Text} (h : l ∈ plan.lines) :
    (∃ row : Row, l = row.text) ∨ ∃ r : Routine, l = r.header := by
  obtain ⟨r, -, hl⟩ := List.mem_flatMap.1 h
  rcases List.mem_cons.1 hl with rfl | hl
  · exact .inr ⟨r, rfl⟩
  · obtain ⟨row, -, rfl⟩ := List.mem_map.1 hl
    exact .inl ⟨row, rfl⟩

theorem Plan.ofPlan_of_mem_lines (plan : Plan) {l : Text} (h : l ∈ plan.lines) : l.OfPlan := by
  rcases plan.mem_lines h with ⟨r, rfl⟩ | ⟨r, rfl⟩
  · exact .row r
  · exact .header r

theorem Row.skipGap_text (r : Row) (rest : Text) : (r.text ++ rest).skipGap = r.phrase.text ++ rest := by
  rw [Row.text, List.append_assoc]
  exact Text.skipGap_replicate_append _ fun c hc =>
    Text.isGap_eq_false_of_isWordChar (r.phrase.head_append rest c hc)

theorem Row.head_skipGap (r : Row) (rest : Text) :
    ∀ c ∈ (r.text ++ rest).skipGap.head?, Text.isWordChar c = true := by
  rw [r.skipGap_text]
  exact r.phrase.head_append rest

theorem Routine.head_skipGap (r : Routine) (rest : Text) :
    ∀ c ∈ (r.header ++ rest).skipGap.head?, Text.isWordChar c = true := by
  intro c hc
  cases hc
  decide

namespace Text.OfPlan

theorem newline_not_mem {l : Text} (h : OfPlan l) : '\n' ∉ l := by
  cases h with
  | blank => exact List.not_mem_nil
  | row r => exact r.newline_not_mem
  | header r => exact r.newline_not_mem _ List.mem_cons_self

theorem plain_read {l : Text} (h : OfPlan l) (number : Nat) : (Line.read number l).Plain := by
  cases h with
  | blank => exact (Line.blank_read number).plain
  | row r =>
      rw [r.read_text]
      exact r.isCounted_line number
  | header r =>
      have hd : (trim r.header).head? = some 'd' := head?_trim (by decide) 0 _
      obtain ⟨rest, htrim⟩ := List.head?_eq_some_iff.1 hd
      have hpassed : Statement.isPassedOver (trim r.header) = false := by
        rw [htrim]
        exact Phrase.not_passedOver (List.cons_ne_nil _ _) fun c hc => by
          cases hc
          decide
      have hskip := Statement.read_ne_skip hpassed
      have hcounted : (Line.read number r.header).isCounted = true := by
        simpa [Line.isCounted, Line.read] using hskip
      have hmargin : (Line.read number r.header).margin? = some 0 := r.margin?_header
      rw [Line.Plain, hcounted, hmargin]
      rfl

theorem plain_read_block {ls : List Text} (hls : ∀ l ∈ ls, OfPlan l) (number : Nat) :
    ∀ l ∈ Block.read ⟨number, ls⟩, l.Plain := by
  intro l hl
  obtain ⟨i, hi, rfl⟩ := List.mem_mapIdx.1 hl
  exact (hls _ (List.getElem_mem hi)).plain_read _

/-- Whatever comes below the end of a line starts with a character of a name. -/
theorem head_skipGap_below {ls : List Text} (hls : ∀ l ∈ ls, OfPlan l) :
    ∀ c ∈ (below ls).skipGap.head?, isWordChar c = true := by
  induction ls with
  | nil => exact fun c hc => nomatch hc
  | cons l ls ih =>
      obtain ⟨hl, hbelow⟩ := List.forall_mem_cons.1 hls
      rw [below_cons, skipGap, List.dropWhile_cons_of_pos rfl]
      cases hl with
      | blank => exact ih hbelow
      | row r => exact r.head_skipGap _
      | header r => exact r.head_skipGap _

end Text.OfPlan

/-! ### Headers -/

namespace Program

theorem mem_headers_below {ls : List Text} (hls : ∀ l ∈ ls, Text.OfPlan l) {name behind : Text}
    (h : (name, behind) ∈ headers (Text.below ls)) :
    ∃ (r : Routine) (ts : List Text), behind = Text.below ts ∧ r.header :: ts <:+ ls := by
  induction ls with
  | nil =>
      rw [Text.below, List.flatMap_nil, headers] at h
      cases h
  | cons l ls ih =>
      obtain ⟨hl, hls⟩ := List.forall_mem_cons.1 hls
      have hbelow (h : (name, behind) ∈ headers (Text.below ls)) :
          ∃ (r : Routine) (ts : List Text), behind = Text.below ts ∧ r.header :: ts <:+ l :: ls := by
        obtain ⟨r, ts, hbehind, hsuffix⟩ := ih hls h
        exact ⟨r, ts, hbehind, hsuffix.trans (List.suffix_cons l ls)⟩
      rw [Text.below_cons] at h
      change (name, behind) ∈ headers (['\n'] ++ (l ++ Text.below ls)) at h
      rw [headers_append_of_not_mem (by decide)] at h
      cases hl with
      | blank => exact hbelow h
      | row r =>
          rw [headers_row] at h
          exact hbelow h
      | header r =>
          rw [headers_header] at h
          rcases List.mem_cons.1 h with heq | h
          · cases heq
            exact ⟨r, ls, rfl, List.suffix_rfl⟩
          · exact hbelow h

theorem expect?_eq_none {c : Char} (hc : Text.isWordChar c = false) {t : Text}
    (h : ∀ d ∈ t.head?, Text.isWordChar d = true) : Text.expect? c t = none := by
  cases t with
  | nil => rfl
  | cons d t =>
      have hne : d ≠ c := by
        rintro rfl
        cases hc.symm.trans (h d rfl)
      exact if_neg hne

/-- The word behind a keyword is not taken for parameters. -/
theorem afterParameters?_keyword (keyword : Text) (hkeyword : keyword.all Text.isWordChar = true) (w : Word)
    (rest : Text) :
    afterParameters? (Text.spanWord (keyword ++ [' '] ++ w.text ++ "():".toList ++ rest)).2 = none := by
  have hskip : Text.skipGap (' ' :: (w.text ++ ("():".toList ++ rest))) = w.text ++ ("():".toList ++ rest) :=
    Text.skipGap_replicate_append 1 fun c hc => Text.isGap_eq_false_of_isWordChar (w.head_text _ c hc)
  have hspan : (Text.spanWord (keyword ++ ' ' :: (w.text ++ ("():".toList ++ rest)))).2 =
      ' ' :: (w.text ++ ("():".toList ++ rest)) :=
    List.dropWhile_append_of_pos (List.all_eq_true.1 hkeyword)
  simp only [List.append_assoc, List.cons_append, List.nil_append]
  rw [hspan, afterParameters?, hskip, expect?_eq_none (by decide) (w.head_text _)]
  rfl

/-- A line that starts with a name does not go on with a header from above. -/
theorem seam_of_isWordChar {t : Text} (hhead : ∀ c ∈ t.skipGap.head?, Text.isWordChar c = true)
    (hbehind : afterParameters? t.skipGap.spanWord.2 = none) : Seam t where
  next c hc := by
    have hword := hhead c hc
    refine ⟨?_, ?_, ?_⟩
    all_goals
      rintro rfl
      cases hword
  noHeader := by
    have hfeed : Text.skipGap ('\n' :: t) = t.skipGap := rfl
    rw [header?_cons_of_isGap rfl, hfeed, hbehind]
    split <;> rfl

theorem seam_row (r : Row) {ls : List Text} (hls : ∀ l ∈ ls, Text.OfPlan l) :
    Seam (r.text ++ Text.below ls) := by
  refine seam_of_isWordChar (r.head_skipGap _) ?_
  rw [r.skipGap_text]
  cases r.phrase with
  | call name =>
      have hspan := name.spanWord_append (c := '(') (by decide) (')' :: Text.below ls)
      have hcolon := expect?_eq_none (c := ':') (by decide) (Text.OfPlan.head_skipGap_below hls)
      have htext : (Phrase.call name).text ++ Text.below ls = name.text ++ '(' :: (')' :: Text.below ls) :=
        List.append_assoc name.text ['(', ')'] (Text.below ls)
      rw [htext, hspan]
      exact hcolon
  | otherwise => rfl
  | loop condition => exact afterParameters?_keyword "while".toList rfl condition (Text.below ls)
  | branch condition => exact afterParameters?_keyword "if".toList rfl condition (Text.below ls)
  | elseIf condition => exact afterParameters?_keyword "elif".toList rfl condition (Text.below ls)

theorem seam_header (r : Routine) (rest : Text) : Seam (r.header ++ rest) :=
  seam_of_isWordChar (r.head_skipGap rest) (afterParameters?_keyword "def".toList rfl r.name rest)

theorem seam_nil : Seam [] := ⟨fun _ hc => (nomatch hc), rfl⟩

/-- Headers of a script with one line put in that holds none. -/
theorem headers_insert {l next : Text} (hl : Seam l) (hnone : headers l = []) {below : List Text}
    (hnext : Seam (next ++ Text.below below)) (above : List Text) :
    headers (Text.below (above ++ l :: next :: below)) =
      (headers (Text.below above)).map
          (fun (name, behind) => (name, behind ++ Text.below (l :: next :: below))) ++
        headers (Text.below (next :: below)) := by
  have htext : Text.below (above ++ l :: next :: below) =
      (Text.below above ++ '\n' :: l) ++ '\n' :: (next ++ Text.below below) := by
    rw [Text.below_append, Text.below_cons, Text.below_cons, List.append_assoc, List.cons_append]
  have hfeed : headers (Text.below (next :: below)) = headers (next ++ Text.below below) :=
    headers_append_of_not_mem (t := ['\n']) (by decide) (next ++ Text.below below)
  rw [htext, headers_append hnext, headers_append hl, hnone, List.append_nil, List.map_map, hfeed]
  congr 1
  apply List.map_congr_left
  rintro ⟨name, behind⟩ -
  simp [Text.below_cons]

/-- Its procedures: those that start above the line and those that start below it. -/
theorem procedures_insert {l next : Text} (hl : Seam l) (hnone : headers l = [])
    {below : List Text} (hnext : Seam (next ++ Text.below below)) {above : List Text} {whole : Text}
    (hwhole : '\n' :: whole = Text.below (above ++ l :: next :: below)) :
    (ofText whole).procedures =
      ((headers (Text.below above)).map fun (name, behind) =>
          procedureBehind whole name (behind ++ Text.below (l :: next :: below))) ++
        (headers (Text.below (next :: below))).map fun (name, behind) => procedureBehind whole name behind := by
  have hfeed : headers whole = headers ('\n' :: whole) :=
    (headers_append_of_not_mem (t := ['\n']) (by decide) whole).symm
  rw [ofText_eq, hfeed, hwhole, headers_insert hl hnone hnext, List.map_append, List.map_map]
  rfl

end Program

end GridRobot
