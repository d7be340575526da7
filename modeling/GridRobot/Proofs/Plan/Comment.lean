import GridRobot.Proofs.Plan.Seams
import GridRobot.Proofs.Script.LineEnds

/-!
# Comments in the script of a plan

A comment is a remark, and the block that it stands in may end there or start there. So it is not enough
for it to be a line of its own. `Text.Fits` says how far it may be indented, given the lines around it, for
the blocks of a plan to stay what they are; and its text must not hold a header, since headers are found
anywhere. Then the script with the comment runs as with a blank line in its place, for no header of a plan
runs across a line feed (`Program.headers_insert`) and the bodies that are found are the same up to lines
that are passed over (`Plan.bodies_comment`).
-/

namespace GridRobot

/-! ### Comments -/

/-- A comment is a line of its own. -/
def Text.comment (spaces : Nat) (note : Text) : Text := List.replicate spaces ' ' ++ '#' :: note

theorem Text.read_comment (spaces : Nat) (note : Text) (number : Nat) :
    Line.read number (comment spaces note) = ⟨number, some spaces, .skip⟩ := by
  have hmargin : margin? (comment spaces note) = some spaces :=
    margin?_replicate_append spaces (List.cons_ne_nil _ _) fun c hc => by
      cases hc
      decide
  have hpassed : Statement.isPassedOver (trim (comment spaces note)) = true := by
    have hhead : (trim (comment spaces note)).head? = some '#' := head?_trim (by decide) spaces note
    simp [Statement.isPassedOver, hhead]
  rw [Line.read, hmargin, Statement.read]
  simp only [hpassed, if_true]

theorem Text.newline_not_mem_comment {note : Text} (hnote : '\n' ∉ note) (spaces : Nat) :
    '\n' ∉ comment spaces note := by
  simp [comment, hnote]

namespace Program

theorem seam_comment (spaces : Nat) (note : Text) : Seam (Text.comment spaces note) := by
  have hskip : (Text.comment spaces note).skipGap = '#' :: note :=
    Text.skipGap_replicate_append spaces fun c hc => by
      cases hc
      rfl
  have hfeed : Text.skipGap ('\n' :: Text.comment spaces note) = '#' :: note := hskip
  constructor
  · intro c hc
    rw [hskip] at hc
    cases hc
    decide
  · rw [header?_cons_of_isGap rfl, hfeed]
    rfl

theorem headers_comment (spaces : Nat) (note : Text) :
    headers (Text.comment spaces note) = headers note := by
  have hfront : 'd' ∉ List.replicate spaces ' ' ++ ['#'] := by simp
  rw [Text.comment, List.append_cons, headers_append_of_not_mem hfront]

end Program

/-! ### Where a comment may stand -/

/-- A comment below the line `prev` fits if it yields to the next line. Where `prev` is a header, it has to
stand no further to the left than `prev` and lead the block instead. -/
def Text.Fits (spaces : Nat) (prev : Text) (below : List Text) : Prop :=
  if prev.getLast? = some ':' then
    prev.indentation ≤ spaces ∧ Line.Leads spaces (below.map Text.indentation)
  else Line.Yields spaces (below.map Text.indentation)

theorem Plan.margin?_of_mem_lines (plan : Plan) {l : Text} (h : l ∈ plan.lines) :
    l.margin? = some l.indentation := by
  rcases plan.mem_lines h with ⟨r, rfl⟩ | ⟨r, rfl⟩
  · rw [Text.indentation_of_margin? r.margin?_text, r.margin?_text]
  · rw [Text.indentation_of_margin? r.margin?_header, r.margin?_header]

theorem Text.OfPlan.colon_of_opens {l : Text} (h : l.OfPlan) (number : Nat)
    (hopens : (Line.read number l).statement.opens = true) : l.getLast? = some ':' := by
  cases h with
  | blank => cases hopens
  | row r =>
      rw [r.read_text] at hopens
      rw [Row.text, List.getLast?_append_of_ne_nil _ r.phrase.text_ne_nil]
      obtain ⟨depth, ph⟩ := r
      cases ph with
      | call name => cases hopens
      | otherwise => rfl
      | _ => exact List.getLast?_append_of_ne_nil _ (List.cons_ne_nil _ _)
  | header r => exact List.getLast?_append_of_ne_nil _ (List.cons_ne_nil _ _)

theorem Text.Fits.stops {spaces : Nat} {prev : Text} {below : List Text} (h : Fits spaces prev below) :
    prev.indentation ≤ spaces ∨ Line.Yields spaces (below.map Text.indentation) := by
  unfold Fits at h
  split at h
  · exact .inl h.1
  · exact .inr h

theorem Text.Fits.leads {spaces : Nat} {prev : Text} {below : List Text} (h : Fits spaces prev below)
    (hcolon : prev.getLast? = some ':') : Line.Leads spaces (below.map Text.indentation) := by
  unfold Fits at h
  rw [if_pos hcolon] at h
  exact h.2

section Bodies

variable {spaces : Nat} {prev : Text} {below rest : List Text} (hfits : Text.Fits spaces prev below)
  (hofPlan : ∀ l ∈ rest, l.OfPlan) (hrest : rest.filterMap Text.margin? = below.map Text.indentation)

include hfits hofPlan hrest

/-- A comment right below the header of a procedure is not noticed in its body. -/
theorem settled_tame_first (hcolon : prev.getLast? = some ':') (note : Text) (number : Nat) :
    Line.Settled (Block.read ⟨number, [[]] ++ Text.comment spaces note :: rest⟩) ∧
      Line.Tame (Block.read ⟨number, [[]] ++ Text.comment spaces note :: rest⟩) := by
  have hplain := Text.OfPlan.plain_read_block hofPlan (number + 1 + 1)
  have hleads := hfits.leads hcolon
  rw [← hrest, ← Line.margins_read (number + 1 + 1)] at hleads
  have hblank : ∀ l ∈ Block.read ⟨number, [[]]⟩, l.Blank :=
    List.forall_mem_singleton.2 (Line.blank_read number)
  rw [Block.read_insert, Text.read_comment]
  refine ⟨Line.settled_of_leads rfl rfl hblank hplain hleads, ?_⟩
  exact Line.tame_cons (fun hopens => nomatch hopens)
    (Line.tame_cons (fun hopens => nomatch hopens) (Line.tame_of_plain hplain))

/-- Neither is one further down. -/
theorem settled_tame_within {above : List Text} (habove : ∀ l ∈ above ++ [prev], l.OfPlan)
    (hprev : prev.margin? = some prev.indentation) (note : Text) (number : Nat) :
    Line.Settled (Block.read ⟨number, (above ++ [prev]) ++ Text.comment spaces note :: rest⟩) ∧
      Line.Tame (Block.read ⟨number, (above ++ [prev]) ++ Text.comment spaces note :: rest⟩) := by
  have hprevOfPlan : prev.OfPlan := habove prev (by simp)
  have hplain := Text.OfPlan.plain_read_block hofPlan (number + (above ++ [prev]).length + 1)
  have hplainAbove := Text.OfPlan.plain_read_block habove number
  have hlast : Block.read ⟨number, above ++ [prev]⟩ =
      Block.read ⟨number, above⟩ ++ [Line.read (number + above.length) prev] :=
    Block.read_append number above [prev]
  have hmargin : (Line.read (number + above.length) prev).margin? = some prev.indentation := hprev
  have hcounted : (Line.read (number + above.length) prev).isCounted = true := by
    have hplain : _ = _ := hprevOfPlan.plain_read (number + above.length)
    rw [hplain, hmargin]
    rfl
  have hstops : (∃ k ∈ (Line.read (number + above.length) prev).margin?, k ≤ spaces) ∨
      Line.Yields spaces (Line.margins (Block.read ⟨number + (above ++ [prev]).length + 1, rest⟩)) := by
    rw [Line.margins_read, hrest, hmargin]
    exact hfits.stops.imp_left fun hle => ⟨_, rfl, hle⟩
  have hleads : (Line.read (number + above.length) prev).statement.opens = true →
      Line.Leads spaces (Line.margins (Block.read ⟨number + (above ++ [prev]).length + 1, rest⟩)) := by
    rw [Line.margins_read, hrest]
    exact fun hopens => hfits.leads (hprevOfPlan.colon_of_opens _ hopens)
  rw [Block.read_insert, Text.read_comment, hlast]
  rw [hlast] at hplainAbove
  exact ⟨Line.settled_of_isPrefix rfl rfl hcounted hplainAbove hplain hstops List.prefix_rfl,
    Line.tame_remark rfl rfl hcounted hplainAbove hplain hstops hleads⟩

/-- So no procedure that starts above a comment has it noticed. -/
theorem settled_tame_comment {above : List Text} (habove : ∀ l ∈ above ++ [prev], l.OfPlan)
    (hprev : prev.margin? = some prev.indentation) {r : Routine} {ts : List Text}
    (hsuffix : r.header :: ts <:+ above ++ [prev]) (note : Text) (number : Nat) :
    Line.Settled (Block.read ⟨number, ([] :: ts) ++ Text.comment spaces note :: rest⟩) ∧
      Line.Tame (Block.read ⟨number, ([] :: ts) ++ Text.comment spaces note :: rest⟩) := by
  have hts : ∀ l ∈ ([] : Text) :: ts, Text.OfPlan l :=
    List.forall_mem_cons.2 ⟨.blank, fun l hl => habove l (hsuffix.subset (List.mem_cons_of_mem _ hl))⟩
  obtain ⟨front, hfront⟩ := hsuffix
  rcases ts.eq_nil_or_concat with rfl | ⟨ts, l, rfl⟩
  · obtain ⟨-, hheader⟩ := List.append_inj' hfront rfl
    have hcolon : r.header.getLast? = some ':' := List.getLast?_append_of_ne_nil _ (List.cons_ne_nil _ _)
    rw [List.singleton_inj.1 hheader] at hcolon
    exact settled_tame_first hfits hofPlan hrest hcolon note number
  · rw [List.concat_eq_append] at hfront hts ⊢
    rw [← List.cons_append, ← List.append_assoc] at hfront
    obtain ⟨-, hlast⟩ := List.append_inj' hfront rfl
    rw [List.singleton_inj.1 hlast, ← List.cons_append] at hts ⊢
    exact settled_tame_within hfits hofPlan hrest hts hprev note number

end Bodies

/-- A body with a comment that is not noticed holds the same counted lines as with a blank line. -/
theorem counted_body_comment {spaces number : Nat} {note : Text} {above below : List Text}
    (habove : ∀ l ∈ above, l.OfPlan) (hbelow : ∀ l ∈ below, l.OfPlan)
    (hsettled : Line.Settled (Block.read ⟨number, above ++ Text.comment spaces note :: below⟩)) :
    Line.tidy id (Block.read ⟨number, Text.block (above ++ [] :: below)⟩) =
      Line.counted (Block.read ⟨number, Text.block (above ++ Text.comment spaces note :: below)⟩) := by
  have hplain := Text.OfPlan.plain_read_block
    (List.forall_mem_append.2 ⟨habove, List.forall_mem_cons.2 ⟨.blank, hbelow⟩⟩) number
  rw [← Line.block_read, ← Line.block_read, ← hsettled.block, ← Line.block_tidy, Line.tidy_id_of_plain hplain,
    Block.read_insert, Block.read_insert, Text.read_comment, Line.counted_append, Line.counted_append,
    Line.counted_cons_of_not_counted rfl, Line.counted_cons_of_not_counted rfl]

/-! ### Programs -/

namespace Plan

section Scripts

variable {plan : Plan} {above below : List Text} {prev next : Text}
  (hlines : plan.lines = above ++ prev :: next :: below)

include hlines

theorem ofPlan_above : ∀ l ∈ above ++ [prev], l.OfPlan := by
  intro l hl
  apply plan.ofPlan_of_mem_lines
  rw [hlines, List.append_cons]
  exact List.mem_append_left _ hl

theorem ofPlan_below (feeds : Nat) : ∀ l ∈ next :: (below ++ List.replicate feeds []), l.OfPlan := by
  intro l hl
  rw [← List.cons_append] at hl
  rcases List.mem_append.1 hl with hl | hl
  · apply plan.ofPlan_of_mem_lines
    rw [hlines]
    exact List.mem_append_right above (List.mem_cons_of_mem prev hl)
  · rw [List.eq_of_mem_replicate hl]
    exact .blank

theorem seam_below (feeds : Nat) :
    Program.Seam (next ++ Text.below (below ++ List.replicate feeds [])) := by
  have hnext : next ∈ plan.lines := by simp [hlines]
  rcases plan.mem_lines hnext with ⟨r, rfl⟩ | ⟨r, rfl⟩
  · exact Program.seam_row r (List.forall_mem_cons.1 (ofPlan_below hlines feeds)).2
  · exact Program.seam_header r _

theorem margins_below (feeds : Nat) :
    (next :: (below ++ List.replicate feeds [])).filterMap Text.margin? =
      (next :: below).map Text.indentation := by
  have hmargin : ∀ l ∈ next :: below, l.margin? = (some ∘ Text.indentation) l := by
    intro l hl
    apply plan.margin?_of_mem_lines
    rw [hlines]
    exact List.mem_append_right above (List.mem_cons_of_mem prev hl)
  have hblank : (List.replicate feeds []).filterMap Text.margin? = [] := by
    rw [List.filterMap_eq_nil_iff]
    intro l hl
    rw [List.eq_of_mem_replicate hl]
    rfl
  rw [← List.cons_append, List.filterMap_append, hblank, List.append_nil, List.filterMap_congr hmargin,
    List.filterMap_eq_map]

theorem breaks_comment {spaces : Nat} {note : Text} (hnote : '\n' ∉ note) (feeds : Nat) {whole whole' : Text}
    (hwhole : '\n' :: whole =
      Text.below (above ++ prev :: [] :: next :: (below ++ List.replicate feeds [])))
    (hwhole' : '\n' :: whole' =
      Text.below (above ++ prev :: .comment spaces note :: next :: (below ++ List.replicate feeds []))) :
    whole.breaks = whole'.breaks := by
  have hfeeds (l : Text) (hl : '\n' ∉ l) :
      ∀ t ∈ above ++ [prev] ++ l :: next :: (below ++ List.replicate feeds []), '\n' ∉ t :=
    List.forall_mem_append.2 ⟨fun t ht => (ofPlan_above hlines t ht).newline_not_mem,
      List.forall_mem_cons.2 ⟨hl, fun t ht => (ofPlan_below hlines feeds t ht).newline_not_mem⟩⟩
  have hcount := Text.breaks_below (hfeeds [] List.not_mem_nil)
  have hcount' := Text.breaks_below (hfeeds _ (Text.newline_not_mem_comment hnote spaces))
  rw [← List.append_cons, ← hwhole, Text.breaks_cons_feed] at hcount
  rw [← List.append_cons, ← hwhole', Text.breaks_cons_feed] at hcount'
  simp only [List.length_append, List.length_cons] at hcount hcount'
  omega

variable {spaces : Nat} (hfits : Text.Fits spaces prev (next :: below)) {note : Text} (hnote : '\n' ∉ note)
  (feeds : Nat) {whole whole' : Text} (hbreaks : whole.breaks = whole'.breaks)

include hbreaks

/-- A procedure that starts below the comment. -/
theorem body_below_comment {name behind : Text}
    (h : (name, behind) ∈
      Program.headers (Text.below (next :: (below ++ List.replicate feeds [])))) :
    Line.tidy id (Program.procedureBehind whole name behind).body.read =
        Line.counted (Program.procedureBehind whole' name behind).body.read ∧
      Line.Tame (Program.procedureBehind whole' name behind).body.read := by
  have hofPlan := ofPlan_below hlines feeds
  obtain ⟨r, ts, rfl, hsuffix⟩ := Program.mem_headers_below hofPlan h
  have hts : ∀ l ∈ ts, l.OfPlan := fun l hl => hofPlan l (hsuffix.subset (List.mem_cons_of_mem _ hl))
  have hfeeds : ∀ l ∈ ts, '\n' ∉ l := fun l hl => (hts l hl).newline_not_mem
  rw [Program.procedureBehind_below whole name hfeeds, Program.procedureBehind_below whole' name hfeeds, hbreaks]
  have hplain := Text.OfPlan.plain_read_block (List.forall_mem_cons.2 ⟨.blank, hts⟩)
    (whole'.breaks - ts.length + 1)
  have hblock := fun l hl => hplain l ((Line.isInfix_block _).subset hl)
  rw [Line.block_read] at hblock
  exact ⟨Line.tidy_id_of_plain hblock, Line.tame_of_plain hblock⟩

include hfits hnote

/-- A procedure that starts above the comment. -/
theorem body_above_comment {name behind : Text}
    (h : (name, behind) ∈ Program.headers (Text.below (above ++ [prev]))) :
    Line.tidy id (Program.procedureBehind whole name
        (behind ++ Text.below ([] :: next :: (below ++ List.replicate feeds [])))).body.read =
      Line.counted (Program.procedureBehind whole' name
        (behind ++ Text.below (.comment spaces note :: next :: (below ++ List.replicate feeds [])))).body.read ∧
      Line.Tame (Program.procedureBehind whole' name
        (behind ++ Text.below (.comment spaces note :: next :: (below ++ List.replicate feeds [])))).body.read := by
  have habove := ofPlan_above hlines
  have hofPlan := ofPlan_below hlines feeds
  obtain ⟨r, ts, rfl, hsuffix⟩ := Program.mem_headers_below habove h
  have hts : ∀ l ∈ ts, l.OfPlan := fun l hl => habove l (hsuffix.subset (List.mem_cons_of_mem _ hl))
  have hfeeds (l : Text) (hl : '\n' ∉ l) :
      ∀ t ∈ ts ++ l :: next :: (below ++ List.replicate feeds []), '\n' ∉ t :=
    List.forall_mem_append.2 ⟨fun t ht => (hts t ht).newline_not_mem,
      List.forall_mem_cons.2 ⟨hl, fun t ht => (hofPlan t ht).newline_not_mem⟩⟩
  have hlength : (ts ++ [] :: next :: (below ++ List.replicate feeds [])).length =
      (ts ++ Text.comment spaces note :: next :: (below ++ List.replicate feeds [])).length := by
    simp only [List.length_append, List.length_cons]
  rw [← Text.below_append, ← Text.below_append,
    Program.procedureBehind_below whole name (hfeeds [] List.not_mem_nil),
    Program.procedureBehind_below whole' name (hfeeds _ (Text.newline_not_mem_comment hnote spaces)), hbreaks, hlength]
  have hprev := plan.margin?_of_mem_lines (l := prev) (by simp [hlines])
  obtain ⟨hsettled, htame⟩ := settled_tame_comment hfits hofPlan (margins_below hlines feeds) habove hprev
    hsuffix note (whole'.breaks -
      (ts ++ Text.comment spaces note :: next :: (below ++ List.replicate feeds [])).length + 1)
  refine ⟨counted_body_comment (List.forall_mem_cons.2 ⟨.blank, hts⟩) hofPlan hsettled, ?_⟩
  have hbody := htame.of_isInfix (Line.isInfix_block _)
  rwa [Line.block_read] at hbody

omit hbreaks

variable (hheaders : Program.headers note = [])
  (hwhole : '\n' :: whole =
    Text.below (above ++ prev :: [] :: next :: (below ++ List.replicate feeds [])))
  (hwhole' : '\n' :: whole' =
    Text.below (above ++ prev :: .comment spaces note :: next :: (below ++ List.replicate feeds [])))

include hheaders hwhole hwhole'

/-- The bodies found in a script with a comment are those found with a blank line in its place, up to lines
that are passed over. -/
theorem bodies_comment :
    (Program.ofText whole).procedures.map (fun q => (q.name, Line.tidy id q.body.read)) =
        (Program.ofText whole').procedures.map (fun q => (q.name, Line.counted q.body.read)) ∧
      ∀ q ∈ (Program.ofText whole').procedures, Line.Tame q.body.read := by
  have hseam := seam_below hlines feeds
  have hbreaks := breaks_comment hlines hnote feeds hwhole hwhole'
  rw [List.append_cons] at hwhole hwhole'
  have hprocedures := Program.procedures_insert Program.seam_nil (by rw [Program.headers]) hseam hwhole
  have hprocedures' := Program.procedures_insert (Program.seam_comment spaces note)
    ((Program.headers_comment spaces note).trans hheaders) hseam hwhole'
  rw [hprocedures, hprocedures', List.map_append, List.map_append, List.map_map, List.map_map, List.map_map,
    List.map_map]
  constructor
  · congr 1
    · apply List.map_congr_left
      rintro ⟨name, behind⟩ hmem
      exact Prod.ext rfl (body_above_comment hlines hfits hnote feeds hbreaks hmem).1
    · apply List.map_congr_left
      rintro ⟨name, behind⟩ hmem
      exact Prod.ext rfl (body_below_comment hlines feeds hbreaks hmem).1
  · intro q hq
    rcases List.mem_append.1 hq with hq | hq
    · obtain ⟨⟨name, behind⟩, hmem, rfl⟩ := List.mem_map.1 hq
      exact (body_above_comment hlines hfits hnote feeds hbreaks hmem).2
    · obtain ⟨⟨name, behind⟩, hmem, rfl⟩ := List.mem_map.1 hq
      exact (body_below_comment hlines feeds hbreaks hmem).2

end Scripts

end Plan

/-! ### Runs -/

/-- A comment does what a blank line in its place would do. -/
theorem runScript_comment {plan : Plan} {above below : List Text} {prev next : Text}
    (hlines : plan.lines = above ++ prev :: next :: below) {spaces : Nat}
    (hfits : Text.Fits spaces prev (next :: below)) {note : Text} (hnote : '\n' ∉ note)
    (hheaders : Program.headers note = []) (feeds : Nat) (world : World) (limit : Nat) :
    runScript (Text.script (above ++ prev :: .comment spaces note :: next :: below) feeds) world limit =
      runScript (Text.script (above ++ prev :: [] :: next :: below) feeds) world limit := by
  have hscript (l : Text) :
      '\n' :: (Text.script (above ++ prev :: l :: next :: below) feeds).toList =
        Text.below (above ++ prev :: l :: next :: (below ++ List.replicate feeds [])) := by
    rw [Text.newline_cons_script (List.append_ne_nil_of_right_ne_nil _ (List.cons_ne_nil _ _))]
    simp only [List.append_assoc, List.cons_append]
  obtain ⟨hbodies, htame⟩ := Plan.bodies_comment hlines hfits hnote feeds hheaders (hscript [])
    (hscript (.comment spaces note))
  exact Program.run_of_bodies hbodies htame limit world

/-- A comment in the script of a plan changes nothing about a run but the numbers of the lines below it, if
it holds no header and is indented as it has to be between the lines around it. The numbers are words as long as
the script with the comment has fewer than `UInt32.size - 1` line feeds (`lines_lt_of_runScript_error`). -/
theorem comment_changes_numbers (plan : Plan) (above below : List Text) (prev next : Text)
    (hlines : plan.lines = above ++ prev :: next :: below) (spaces : Nat)
    (hfits : Text.Fits spaces prev (next :: below)) (note : Text) (hnote : '\n' ∉ note)
    (hheaders : Program.headers note = []) (feeds : Nat) (world : World) (limit : Nat) :
    runScript (Text.script (above ++ prev :: .comment spaces note :: next :: below) feeds) world limit =
      RunResult.renumber (numberBelow (above.length + 1)) (runScript (plan.render feeds) world limit) := by
  have habove : above ++ [prev] ≠ [] := List.append_ne_nil_of_right_ne_nil _ (List.cons_ne_nil _ _)
  have hfeeds : ∀ l ∈ above ++ [prev], '\n' ∉ l := fun l hl => (Plan.ofPlan_above hlines l hl).newline_not_mem
  have hlength : (Text.lines (Text.script (above ++ [prev]) 0).toList).length = above.length + 1 := by
    have hcount := Text.breaks_below hfeeds
    have hscript := Text.newline_cons_script habove 0
    rw [List.replicate_zero, List.append_nil] at hscript
    rw [← hscript, Text.breaks_cons_feed, List.length_append] at hcount
    rw [Text.length_lines, hcount]
    rfl
  have hwide := Text.widened_blank_line (List.forall_mem_nil _) (Text.script (above ++ [prev]) 0).toList
    (Text.script (next :: below) feeds).toList
  have hrender : (plan.render feeds).toList =
      (Text.script (above ++ [prev]) 0).toList ++ '\n' :: (Text.script (next :: below) feeds).toList := by
    rw [← Text.toList_script_append habove (List.cons_ne_nil _ _), ← List.append_cons, ← hlines]
    rfl
  have hblank : (Text.script (above ++ prev :: [] :: next :: below) feeds).toList =
      (Text.script (above ++ [prev]) 0).toList ++
        (['\n'] ++ '\n' :: (Text.script (next :: below) feeds).toList) := by
    have hempty := Text.toList_script_append (List.cons_ne_nil [] []) (List.cons_ne_nil next below) feeds
    rw [List.append_cons, Text.toList_script_append habove (List.cons_ne_nil _ _)]
    exact congrArg (fun rest => _ ++ '\n' :: rest) hempty
  rw [hlength, ← hrender, ← hblank] at hwide
  rw [runScript_comment hlines hfits hnote hheaders, hwide.runScript]
  rw [numberBelow, if_neg (by omega)]

instance (spaces : Nat) (prev : Text) (below : List Text) : Decidable (Text.Fits spaces prev below) := by
  unfold Text.Fits Line.Leads Line.Yields
  infer_instance

/-- A plan that turns left twice. -/
def Plan.twoTurns : Plan where
  routines :=
    let main : Word := ⟨"main".toList, List.cons_ne_nil _ _, List.all_eq_true.1 rfl⟩
    let turn : Tree := .call ⟨"turn_left".toList, List.cons_ne_nil _ _, List.all_eq_true.1 rfl⟩
    [⟨main, turn, .cons turn .nil⟩]
  distinct := List.pairwise_singleton _ _
  hasEntryPoint := List.mem_singleton.2 rfl

theorem comment_changes_numbers_below_header :
    let main := "def main():".toList
    let turn := "    turn_left()".toList
    Plan.twoTurns.lines = [] ++ main :: turn :: [turn] ∧ Text.Fits 2 main [turn, turn] ∧
      Program.headers " def".toList = [] ∧
      runScript (Text.script [main, .comment 2 " def".toList, turn, turn] 1) .initial 4 =
        RunResult.renumber (numberBelow 1) (runScript (Plan.twoTurns.render 1) .initial 4) := by
  intro main turn
  have hlines : Plan.twoTurns.lines = [] ++ main :: turn :: [turn] := by decide
  have hfits : Text.Fits 2 main [turn, turn] := by decide
  have hheaders : Program.headers " def".toList = [] := by decide +kernel
  exact ⟨hlines, hfits, hheaders, comment_changes_numbers Plan.twoTurns [] [turn] main turn hlines 2 hfits
    " def".toList (by decide) hheaders 1 .initial 4⟩

/-- A comment left of the line below it, one right of the block that it starts, and one that holds a header:
each makes the run another one. -/
theorem comments_that_change_runs :
    let main := "def main():".toList
    let turn := "    turn_left()".toList
    let note := " note".toList
    let header := " def main():".toList
    Plan.twoTurns.lines = [main, turn, turn] ∧
      (∃ o, runScript (Plan.twoTurns.render 0) .initial 4 = .ok o ∧ o.steps = 2) ∧
      ∀ ls ∈ [[main, turn, Text.comment 0 note, turn], [main, Text.comment 5 note, turn, turn],
          [main, turn, Text.comment 4 header, turn]],
        ∃ o, runScript (Text.script ls 0) .initial 4 = .ok o ∧ o.steps < 2 := by
  intro main turn note header
  have hsteps (test : Nat → Bool) (script : String)
      (hentry : ((Code.ofProgram (Program.parse script)).body? entryPoint).isSome = true)
      (hends : ((Machine.load script .initial).runWithin (.ofScript script 4) 6).any
        (fun result => result.toOption.any fun p => test p.steps) = true) :
      ∃ o, runScript script .initial 4 = .ok o ∧ test o.steps = true := by
    obtain ⟨result, hresult, htest⟩ := exists_ofEnd_of_runWithin hentry hends
    cases result with
    | ok p => exact ⟨_, hresult, htest⟩
    | error stop => cases htest
  refine ⟨by decide, ?_, fun ls hls => ?_⟩
  · obtain ⟨o, ho, htest⟩ := hsteps (· == 2) (Plan.twoTurns.render 0) (by decide +kernel) (by decide +kernel)
    exact ⟨o, ho, beq_iff_eq.1 htest⟩
  · have hruns : ∀ ls ∈ [[main, turn, Text.comment 0 note, turn], [main, Text.comment 5 note, turn, turn],
          [main, turn, Text.comment 4 header, turn]],
        ((Code.ofProgram (Program.parse (Text.script ls 0))).body? entryPoint).isSome = true ∧
          ((Machine.load (Text.script ls 0) .initial).runWithin (.ofScript (Text.script ls 0) 4) 6).any
            (fun result => result.toOption.any fun p => p.steps < 2) = true := by
      decide +kernel
    obtain ⟨hentry, hends⟩ := hruns ls hls
    obtain ⟨o, ho, htest⟩ := hsteps (· < 2) _ hentry hends
    exact ⟨o, ho, of_decide_eq_true htest⟩

end GridRobot
