import GridRobot.Proofs.Plan.Headers
import GridRobot.Proofs.Plan.Layout

/-!
# The script of a plan

Reading the script of a plan back gives the procedures of the plan, each at the line it was written on
and with the lines of its body.
-/

namespace GridRobot

namespace Text

/-- Lines, each with a line feed before it. -/
def below (ls : List Text) : Text := ls.flatMap ('\n' :: ·)

theorem below_cons (l : Text) (ls : List Text) : below (l :: ls) = '\n' :: (l ++ below ls) := rfl

theorem below_append (ls ls' : List Text) : below (ls ++ ls') = below ls ++ below ls' :=
  List.flatMap_append

theorem intercalate_eq_below (l : Text) (ls : List Text) :
    List.intercalate ['\n'] (l :: ls) = l ++ below ls := by
  induction ls generalizing l with
  | nil => simp [List.intercalate, below]
  | cons l' ls ih =>
      rw [List.intercalate_cons_cons, ih, below_cons]
      simp

theorem replicate_eq_below (n : Nat) : List.replicate n '\n' = below (List.replicate n []) := by
  induction n with
  | zero => rfl
  | succ n ih => rw [List.replicate_succ, List.replicate_succ, below_cons, ih, List.nil_append]

/-- A script that is made of the given lines, with any number of line feeds behind the last. -/
def script (ls : List Text) (feeds : Nat) : String :=
  String.ofList (List.intercalate ['\n'] ls ++ List.replicate feeds '\n')

theorem newline_cons_script {ls : List Text} (hne : ls ≠ []) (feeds : Nat) :
    '\n' :: (script ls feeds).toList = below (ls ++ List.replicate feeds []) := by
  obtain ⟨l, ls, rfl⟩ := List.exists_cons_of_ne_nil hne
  rw [script, String.toList_ofList, intercalate_eq_below, replicate_eq_below, List.append_assoc,
    ← below_append]
  rfl

/-- Scripts one below the other. -/
theorem toList_script_append {above below : List Text} (habove : above ≠ []) (hbelow : below ≠ [])
    (feeds : Nat) :
    (script (above ++ below) feeds).toList =
      (script above 0).toList ++ '\n' :: (script below feeds).toList := by
  have hwhole := newline_cons_script (List.append_ne_nil_of_left_ne_nil habove below) feeds
  have hfront := newline_cons_script habove 0
  rw [List.replicate_zero, List.append_nil] at hfront
  rw [List.append_assoc, below_append, ← newline_cons_script hbelow, ← hfront] at hwhole
  exact (List.cons.inj hwhole).2

theorem lines_append_below {l : Text} {ls : List Text} (hl : '\n' ∉ l) (hls : ∀ l ∈ ls, '\n' ∉ l) :
    lines (l ++ below ls) = l :: ls := by
  induction ls generalizing l with
  | nil =>
      rw [lines, pieces, cut_append_of_not_mem hl]
      simp [below, cut]
  | cons l' ls ih =>
      have hrest := ih (hls l' List.mem_cons_self) fun l hl => hls l (List.mem_cons_of_mem l' hl)
      simp only [lines, pieces] at hrest ⊢
      simp [cut_append_of_not_mem hl, below_cons, cut, hrest]

theorem breaks_below {ls : List Text} (hls : ∀ l ∈ ls, '\n' ∉ l) : breaks (below ls) = ls.length := by
  induction ls with
  | nil => rfl
  | cons l ls ih =>
      have hrest := ih fun l' hl' => hls l' (List.mem_cons_of_mem l hl')
      have hl : l.count '\n' = 0 := List.count_eq_zero.2 (hls l List.mem_cons_self)
      rw [breaks] at hrest ⊢
      rw [below_cons, List.count_cons_self, List.count_append, hrest, hl, List.length_cons, Nat.zero_add]

end Text

/-! ### Line feeds -/

theorem Word.newline_not_mem (w : Word) : '\n' ∉ w.text := w.not_mem_text (by decide)

theorem Phrase.newline_not_mem (ph : Phrase) : '\n' ∉ ph.text := by
  have hheader (keyword : Text) (hkeyword : '\n' ∉ keyword) (w : Word) :
      '\n' ∉ keyword ++ w.text ++ "():".toList := by
    simp [hkeyword, w.newline_not_mem]
  cases ph with
  | call name =>
      change '\n' ∉ name.text ++ "()".toList
      simp [name.newline_not_mem]
  | loop condition => exact hheader "while ".toList (by decide) condition
  | branch condition => exact hheader "if ".toList (by decide) condition
  | elseIf condition => exact hheader "elif ".toList (by decide) condition
  | otherwise =>
      change '\n' ∉ "else:".toList
      decide

theorem Row.newline_not_mem (r : Row) : '\n' ∉ r.text := by
  rw [Row.text, List.mem_append, not_or]
  refine ⟨fun h => ?_, r.phrase.newline_not_mem⟩
  cases List.eq_of_mem_replicate h

theorem Routine.newline_not_mem (r : Routine) : ∀ l ∈ r.lines, '\n' ∉ l := by
  intro l hl
  rcases List.mem_cons.1 hl with rfl | hl
  · change '\n' ∉ "def ".toList ++ r.name.text ++ "():".toList
    simp [r.name.newline_not_mem]
  · obtain ⟨row, -, rfl⟩ := List.mem_map.1 hl
    exact row.newline_not_mem

theorem Routine.newline_not_mem_lines (rs : List Routine) (feeds : Nat) :
    ∀ l ∈ rs.flatMap Routine.lines ++ List.replicate feeds [], '\n' ∉ l := by
  intro l hl
  rcases List.mem_append.1 hl with hl | hl
  · obtain ⟨r, -, hl⟩ := List.mem_flatMap.1 hl
    exact r.newline_not_mem l hl
  · rw [List.eq_of_mem_replicate hl]
    exact List.not_mem_nil

/-! ### The bodies of procedures -/

theorem Block.read_rows (number : Nat) (rows : List Row) (ts : List Text) :
    Block.read ⟨number, rows.map Row.text ++ ts⟩ =
      Row.lines number rows ++ Block.read ⟨number + rows.length, ts⟩ := by
  induction rows generalizing number with
  | nil => rfl
  | cons r rows ih =>
      rw [List.map_cons, List.cons_append, Block.read_cons, ih, Row.read_text, Row.lines,
        List.length_cons, List.cons_append, Nat.add_right_comm, Nat.add_assoc]

theorem Block.blank_read_replicate (number n : Nat) :
    ∀ l ∈ Block.read ⟨number, List.replicate n []⟩, l.Blank := by
  induction n generalizing number with
  | zero => simp [Block.read]
  | succ n ih =>
      rw [List.replicate_succ, Block.read_cons, List.forall_mem_cons]
      exact ⟨Line.blank_read number, ih (number + 1)⟩

theorem Routine.margin?_header (r : Routine) : Text.margin? r.header = some 0 :=
  Text.margin?_replicate_append 0 (List.cons_ne_nil _ _) fun c hc => by
    cases hc
    decide

/-- The body of a procedure ends where the next one starts; line feeds at the end of the script belong to
the last procedure. -/
theorem Routine.block_lines (r : Routine) (rs : List Routine) (feeds : Nat) :
    ∃ n, Text.block ([] :: ((r.body.rows 1).map Row.text ++
        (rs.flatMap Routine.lines ++ List.replicate feeds []))) =
      [] :: ((r.body.rows 1).map Row.text ++ List.replicate n []) := by
  have hdepth := Forest.le_depth 1 r.body
  obtain ⟨ph, rest, hrows, -⟩ := Tree.head_rows 1 r.first
  rw [Routine.body, Forest.rows, hrows, List.cons_append] at hdepth ⊢
  have hbody : ∀ t ∈ (rest ++ r.more.rows 1).map Row.text, (Text.margin? t).all (4 ≤ ·) = true := by
    intro t ht
    obtain ⟨row, hrow, rfl⟩ := List.mem_map.1 ht
    have hle := hdepth row (List.mem_cons_of_mem _ hrow)
    rw [Row.margin?_text, Option.all_some, decide_eq_true_eq]
    omega
  have hlead : ∀ t ∈ [([] : Text)], Text.margin? t = none := by simp [Text.margin?, Text.isEmptyLine]
  have hblock := takeBlock_append hlead (Row.margin?_text ⟨1, ph⟩) hbody
    (rs.flatMap Routine.lines ++ List.replicate feeds [])
  rw [List.map_cons]
  refine ⟨if rs = [] then feeds else 0, ?_⟩
  rw [Text.block]
  refine hblock.trans ?_
  cases rs with
  | nil =>
      have hblank : (Text.margin? []).all (4 * 1 ≤ ·) = true := rfl
      simp [hblank]
  | cons r' rs =>
      have hstop : (Text.margin? r'.header).all (4 * 1 ≤ ·) = false := by
        rw [r'.margin?_header]
        rfl
      simp [Routine.lines, hstop]

/-- The body of a procedure that is read off a script shows the body of the plan. -/
theorem Routine.shown_body (r : Routine) (rs : List Routine) (feeds number : Nat) :
    r.body.Shown (number + 1) (Block.read ⟨number, Text.block ([] :: ((r.body.rows 1).map Row.text ++
      (rs.flatMap Routine.lines ++ List.replicate feeds [])))⟩) := by
  obtain ⟨n, hblock⟩ := r.block_lines rs feeds
  rw [hblock, Block.read_cons, Block.read_rows]
  refine ⟨1, [Line.read number []], _, ?_, Block.blank_read_replicate _ n, rfl⟩
  intro l hl
  rw [List.mem_singleton.1 hl]
  exact Line.blank_read number

/-! ### The procedures -/

namespace Program

/-- Of procedures with different names the first one with a name is also the last. -/
theorem find?_cons {q : Procedure} {ps : List Procedure} (hq : q.name ∉ ps.map (·.name)) (name : String) :
    find? ⟨q :: ps⟩ name = if q.name = name then some q else find? ⟨ps⟩ name := by
  by_cases h : q.name = name
  · have hnone : ps.filter (·.name = name) = [] := by
      rw [List.filter_eq_nil_iff]
      intro p hp hname
      rw [decide_eq_true_eq] at hname
      exact hq (h ▸ hname ▸ List.mem_map_of_mem hp)
    rw [find?, List.filter_cons_of_pos (by simpa using h), hnone, if_pos h]
    rfl
  · rw [find?, List.filter_cons_of_neg (by simpa using h), if_neg h]
    rfl

theorem headers_rows (rows : List Row) (ls : List Text) :
    headers (Text.below (rows.map Row.text ++ ls)) = headers (Text.below ls) := by
  induction rows with
  | nil => rfl
  | cons r rows ih =>
      rw [List.map_cons, List.cons_append, Text.below_cons]
      exact (headers_append_of_not_mem (t := ['\n']) (by decide) _).trans ((headers_row r _).trans ih)

theorem headers_blanks (n : Nat) : headers (Text.below (List.replicate n [])) = [] := by
  have hno : 'd' ∉ List.replicate n '\n' := by
    intro h
    cases List.eq_of_mem_replicate h
  have hnil := headers_append_of_not_mem hno []
  rw [List.append_nil] at hnil
  rw [← Text.replicate_eq_below, hnil, headers]

theorem headers_routines (r : Routine) (rs : List Routine) (feeds : Nat) :
    headers (Text.below ((r :: rs).flatMap Routine.lines ++ List.replicate feeds [])) =
      (r.name.text, Text.below ((r.body.rows 1).map Row.text ++
        (rs.flatMap Routine.lines ++ List.replicate feeds []))) ::
      headers (Text.below (rs.flatMap Routine.lines ++ List.replicate feeds [])) := by
  have htext : Text.below ((r :: rs).flatMap Routine.lines ++ List.replicate feeds []) =
      ['\n'] ++ (r.header ++ Text.below ((r.body.rows 1).map Row.text ++
        (rs.flatMap Routine.lines ++ List.replicate feeds []))) := by
    rw [List.flatMap_cons, Routine.lines, List.append_assoc, List.cons_append, Text.below_cons]
    rfl
  rw [htext, headers_append_of_not_mem (by decide), headers_header, headers_rows]

theorem procedureBehind_below (whole name : Text) {ls : List Text} (hls : ∀ l ∈ ls, '\n' ∉ l) :
    procedureBehind whole name (Text.below ls) =
      ⟨String.ofList name, ⟨whole.breaks - ls.length + 1, Text.block ([] :: ls)⟩⟩ := by
  have hcut := Text.lines_append_below (l := []) List.not_mem_nil hls
  rw [List.nil_append] at hcut
  rw [procedureBehind, Text.breaks_below hls, hcut]

def ofRoutines (whole : Text) (rs : List Routine) (feeds : Nat) : Program :=
  ⟨(headers (Text.below (rs.flatMap Routine.lines ++ List.replicate feeds []))).map
    fun (name, behind) => procedureBehind whole name behind⟩

theorem ofRoutines_nil (whole : Text) (feeds : Nat) : ofRoutines whole [] feeds = ⟨[]⟩ := by
  rw [ofRoutines, List.flatMap_nil, List.nil_append, headers_blanks]
  rfl

theorem ofRoutines_cons (whole : Text) (r : Routine) (rs : List Routine) (feeds : Nat) :
    ofRoutines whole (r :: rs) feeds =
      ⟨⟨r.name.name, ⟨whole.breaks - (r.body.height + (rs.flatMap Routine.lines).length + feeds) + 1,
          Text.block ([] :: ((r.body.rows 1).map Row.text ++
            (rs.flatMap Routine.lines ++ List.replicate feeds [])))⟩⟩ ::
        (ofRoutines whole rs feeds).procedures⟩ := by
  have hlines : ∀ l ∈ (r.body.rows 1).map Row.text ++
      (rs.flatMap Routine.lines ++ List.replicate feeds []), '\n' ∉ l := by
    intro l hl
    rcases List.mem_append.1 hl with hl | hl
    · exact r.newline_not_mem l (List.mem_cons_of_mem _ hl)
    · exact Routine.newline_not_mem_lines rs feeds l hl
  have hlength : ((r.body.rows 1).map Row.text ++
      (rs.flatMap Routine.lines ++ List.replicate feeds [])).length =
        r.body.height + (rs.flatMap Routine.lines).length + feeds := by
    rw [List.length_append, List.length_append, List.length_map, Forest.length_rows, List.length_replicate,
      ← Nat.add_assoc]
  rw [ofRoutines, headers_routines, List.map_cons]
  dsimp only
  rw [procedureBehind_below whole r.name.text hlines, hlength]
  rfl

theorem names_ofRoutines (whole : Text) (rs : List Routine) (feeds : Nat) :
    (ofRoutines whole rs feeds).procedures.map (·.name) = rs.map (·.name.name) := by
  induction rs with
  | nil => rw [ofRoutines_nil, List.map_nil, List.map_nil]
  | cons r rs ih => rw [ofRoutines_cons, List.map_cons, List.map_cons, ih]

/-- What is found under a name shows the body that the name stands for, at its line. `above` lines stand
before the part of the script that is searched. -/
theorem shown_find?_ofRoutines {whole : Text} {rs : List Routine} {feeds above : Nat}
    (hdistinct : (rs.map (·.name.name)).Nodup)
    (hwhole : whole.breaks + 1 = above + (rs.flatMap Routine.lines).length + feeds) (name : String) :
    Option.Rel Forest.ShownAt
      (Routine.locate name (above + 1) rs)
      (((ofRoutines whole rs feeds).find? name).map (·.body.read)) := by
  induction rs generalizing above with
  | nil =>
      rw [ofRoutines_nil]
      exact .none
  | cons r rs ih =>
      have hheight : r.lines.length = r.body.height + 1 := by
        rw [Routine.lines, List.length_cons, List.length_map, Forest.length_rows]
      rw [List.flatMap_cons, List.length_append, hheight] at hwhole
      rw [List.map_cons, List.nodup_cons] at hdistinct
      rw [ofRoutines_cons, find?_cons (by rw [names_ofRoutines]; exact hdistinct.1), Routine.locate]
      by_cases hname : r.name.name = name
      · have hrow : whole.breaks - (r.body.height + (rs.flatMap Routine.lines).length + feeds) = above := by
          omega
        rw [if_pos hname, if_pos hname, hrow]
        exact .some (r.shown_body rs feeds (above + 1))
      · rw [if_neg hname, if_neg hname]
        have hrest := @ih (above + 1 + r.body.height) hdistinct.2 (by omega)
        rwa [Nat.add_right_comm] at hrest

end Program

namespace Plan

/-- A script is its lines below one another, but for the line feed before the first. -/
theorem newline_cons_render (plan : Plan) (feeds : Nat) :
    '\n' :: (plan.render feeds).toList = Text.below (plan.lines ++ List.replicate feeds []) := by
  have hne : plan.lines ≠ [] := by
    obtain ⟨r, hr, -⟩ := List.mem_map.1 plan.hasEntryPoint
    intro hnil
    exact List.not_mem_nil (hnil ▸ List.mem_flatMap.2 ⟨r, hr, List.mem_cons_self⟩ : r.header ∈ [])
  exact Text.newline_cons_script hne feeds

theorem parse_render (plan : Plan) (feeds : Nat) :
    Program.parse (plan.render feeds) =
      Program.ofRoutines (plan.render feeds).toList plan.routines feeds := by
  have hheaders := Program.headers_append_of_not_mem (t := ['\n']) (by decide) (plan.render feeds).toList
  rw [List.singleton_append, plan.newline_cons_render] at hheaders
  rw [Program.parse, Program.ofText_eq, ← hheaders]
  rfl

theorem breaks_render (plan : Plan) (feeds : Nat) :
    Text.breaks (plan.render feeds).toList + 1 = plan.lines.length + feeds := by
  have hbreaks := Text.breaks_below (Routine.newline_not_mem_lines plan.routines feeds)
  change Text.breaks (Text.below (plan.lines ++ _)) = (plan.lines ++ _).length at hbreaks
  rwa [← plan.newline_cons_render, Text.breaks, List.count_cons_self, List.length_append,
    List.length_replicate] at hbreaks

/-- The code of a plan's script holds, under each name, lines that show the body of the plan's procedure
with that name. -/
theorem shown_body? (plan : Plan) (feeds : Nat) (name : String) :
    Option.Rel Forest.ShownAt
      (Routine.locate name 1 plan.routines)
      ((Code.ofProgram (Program.parse (plan.render feeds))).body? name) := by
  have hbreaks := plan.breaks_render feeds
  rw [← Nat.zero_add plan.lines.length] at hbreaks
  rw [Code.body?_ofProgram, parse_render]
  exact Program.shown_find?_ofRoutines plan.distinct hbreaks name

end Plan

end GridRobot
