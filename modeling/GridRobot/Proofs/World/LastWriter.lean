import GridRobot.World.Declaration

/-!
# The last writer wins

A world file is read line by line, and a line changes what the lines before it have set up. What comes out
can be said of all lines at once. Each part of the world is declared by lines with a keyword of its own: the
sides of the grid, the robot, the bag and each cell are as the last line says that declares them, and the
walls are all that are declared. `World.readLine_eq` says once what a line does; everything else follows from it.
-/

namespace GridRobot

namespace Declaration

/-- The keyword of a line that has one. -/
def keywordOf? (line : Text) : Option Text := (parts? line).map (·.1)

/-- What a line declares with a keyword, where `read` reads the parameters that belong to it. -/
def on? {α : Type} (keyword : String) (read : Text → Option α) (line : Text) : Option α :=
  (parts? line).bind fun parts => if parts.1 = keyword.toList then read parts.2 else none

theorem on?_eq_none {α : Type} {keyword : String} {read : Text → Option α} {line : Text}
    (h : keywordOf? line ≠ some keyword.toList) : on? keyword read line = none := by
  rw [on?, Option.bind_eq_none_iff]
  intro parts hparts
  rw [keywordOf?, hparts, Option.map_some, ne_eq, Option.some.injEq] at h
  exact if_neg h

theorem on?_eq_none_or {α : Type} {keyword : String} {read : Text → Option α} {line line' : Text}
    (h : keywordOf? line ≠ keywordOf? line') : on? keyword read line = none ∨ on? keyword read line' = none := by
  by_cases hkeyword : keywordOf? line = some keyword.toList
  · exact .inr (on?_eq_none fun hkeyword' => h (hkeyword.trans hkeyword'.symm))
  · exact .inl (on?_eq_none hkeyword)

/-- The sides of the grid that a line declares. Both have to be positive. -/
def sidesOn? : Text → Option Position :=
  on? "dimension" fun params => (Scan.leftmost Scan.cell params).filter fun p => 0 < p.x && 0 < p.y

/-- The wall that a line declares. -/
def wallOn? : Text → Option Wall :=
  on? "wall" fun params => (Scan.leftmost (Scan.cellThen Scan.direction) params).map fun found => ⟨found.1, found.2⟩

/-- The pile that a line declares. -/
def pileOn? : Text → Option Pile :=
  on? "beeper" fun params => (Scan.leftmost (Scan.cellThen Scan.number) params).map fun found => ⟨found.1, found.2⟩

/-- The count that a line declares for a cell. -/
def countOn? (cell : Position) (line : Text) : Option UInt32 :=
  ((pileOn? line).filter (·.cell = cell)).map (·.count)

theorem countOn?_eq_none {line : Text} (h : pileOn? line = none) (cell : Position) : countOn? cell line = none := by
  rw [countOn?, h]
  rfl

/-- The pose that a line declares. -/
def poseOn? : Text → Option Pose :=
  on? "karel" fun params => (Scan.leftmost (Scan.cellThen Scan.direction) params).map fun found => ⟨found.1, found.2⟩

/-- The bag that a line declares. Every parameter stands for some bag. -/
def bagOn? : Text → Option Bag := on? "beeperbag" fun params => some (readBag params)

end Declaration

open Declaration

namespace World

/-- What a line changes. -/
def readLine (w : World) (line : Text) : World := (read? line).elim w w.declare

/-- The world with those of its parts replaced that are given, and a wall more if one is given. -/
def update (w : World) (sides : Option Position) (wall : Option Wall) (pile : Option Pile) (pose : Option Pose)
    (bag : Option Bag) : World where
  width := (sides.map (·.x)).getD w.width
  height := (sides.map (·.y)).getD w.height
  walls := w.walls ++ wall.toList
  beepers := pile.elim w.beepers fun pile => w.beepers.set pile.cell pile.count
  agent := pose.getD w.agent
  bag := bag.getD w.bag

theorem update_none (w : World) : w.update none none none none none = w := by simp [update]

theorem update_sides (w : World) (p : Position) :
    w.update (some p) none none none none = w.declare (.dimension p.x p.y) := by simp [update, declare]

theorem update_wall (w : World) (wall : Wall) :
    w.update none (some wall) none none none = w.declare (.wall wall) := by simp [update, declare, addWall]

theorem update_pile (w : World) (pile : Pile) :
    w.update none none (some pile) none none = w.declare (.beeper pile) := by simp [update, declare, setBeepers]

theorem update_pose (w : World) (pose : Pose) :
    w.update none none none (some pose) none = w.declare (.agent pose) := by simp [update, declare]

theorem update_bag (w : World) (bag : Bag) :
    w.update none none none none (some bag) = w.declare (.bag bag) := by simp [update, declare]

theorem elim_readDimension? (w : World) (params : Text) :
    (readDimension? params).elim w w.declare =
      w.update ((Scan.leftmost Scan.cell params).filter fun p => 0 < p.x && 0 < p.y) none none none none := by
  rw [readDimension?]
  cases Scan.leftmost Scan.cell params with
  | none => exact w.update_none.symm
  | some p =>
      show (if p.x = 0 ∨ p.y = 0 then none else some (.dimension p.x p.y)).elim w w.declare = _
      by_cases hzero : p.x = 0 ∨ p.y = 0
      · have hnone : (some p).filter (fun p => decide (0 < p.x) && decide (0 < p.y)) = none := by
          simpa [UInt32.pos_iff_ne_zero, Decidable.or_iff_not_imp_left] using hzero
        rw [if_pos hzero, hnone, update_none]
        rfl
      · have hsome : (some p).filter (fun p => decide (0 < p.x) && decide (0 < p.y)) = some p := by
          simpa [UInt32.pos_iff_ne_zero, not_or] using hzero
        rw [if_neg hzero, hsome, update_sides]
        rfl

/-- All that a line can do. -/
theorem readLine_eq (w : World) (line : Text) :
    w.readLine line = w.update (sidesOn? line) (wallOn? line) (pileOn? line) (poseOn? line) (bagOn? line) := by
  cases hparts : parts? line with
  | none =>
      simp only [readLine, read?, sidesOn?, wallOn?, pileOn?, poseOn?, bagOn?, on?, hparts, Option.bind_none]
      exact w.update_none.symm
  | some parts =>
      obtain ⟨found, params⟩ := parts
      simp only [readLine, read?, sidesOn?, wallOn?, pileOn?, poseOn?, bagOn?, on?, hparts, Option.bind_some, ofParts?]
      by_cases hdimension : found = "dimension".toList
      · subst hdimension
        simp only [String.toList_inj, String.reduceEq, reduceIte]
        exact w.elim_readDimension? params
      by_cases hwall : found = "wall".toList
      · subst hwall
        simp only [String.toList_inj, String.reduceEq, reduceIte]
        cases Scan.leftmost (Scan.cellThen Scan.direction) params with
        | none => exact w.update_none.symm
        | some wall => exact (w.update_wall _).symm
      by_cases hbeeper : found = "beeper".toList
      · subst hbeeper
        simp only [String.toList_inj, String.reduceEq, reduceIte]
        cases Scan.leftmost (Scan.cellThen Scan.number) params with
        | none => exact w.update_none.symm
        | some pile => exact (w.update_pile _).symm
      by_cases hkarel : found = "karel".toList
      · subst hkarel
        simp only [String.toList_inj, String.reduceEq, reduceIte]
        cases Scan.leftmost (Scan.cellThen Scan.direction) params with
        | none => exact w.update_none.symm
        | some pose => exact (w.update_pose _).symm
      by_cases hbag : found = "beeperbag".toList
      · subst hbag
        simp only [String.toList_inj, String.reduceEq, reduceIte]
        exact (w.update_bag _).symm
      simp only [if_neg hdimension, if_neg hwall, if_neg hbeeper, if_neg hkarel, if_neg hbag]
      exact w.update_none.symm

/-! ### All lines -/

/-- The world that lines describe. -/
def ofLines (ls : List Text) : World := ls.foldl readLine initial

theorem parse_eq_ofLines (text : String) : parse text = ofLines (Text.lines text.toList) := by
  rw [parse, ofText, ofDeclarations, List.foldl_filterMap, ofLines]
  congr 1
  funext w line
  rw [readLine]
  cases read? line <;> rfl

/-- A part of a world that each line replaces or leaves is as the last line says that replaces it. -/
theorem foldl_readLine_last {α : Type} (part : World → α) {value? : Text → Option α}
    (h : ∀ w line, part (readLine w line) = (value? line).getD (part w)) (ls : List Text) (w : World) :
    part (ls.foldl readLine w) = (ls.filterMap value?).getLast?.getD (part w) := by
  induction ls generalizing w with
  | nil => rfl
  | cons line ls ih =>
      rw [List.foldl_cons, ih, h]
      cases hvalue : value? line with
      | none =>
          rw [List.filterMap_cons_none hvalue]
          rfl
      | some value =>
          rw [List.filterMap_cons_some hvalue, List.getLast?_cons]
          rfl

theorem sides_ofLines (ls : List Text) :
    (⟨(ofLines ls).width, (ofLines ls).height⟩ : Position) = (ls.filterMap sidesOn?).getLast?.getD ⟨1, 1⟩ := by
  refine foldl_readLine_last (fun w => (⟨w.width, w.height⟩ : Position)) (fun w line => ?_) ls initial
  rw [readLine_eq]
  cases sidesOn? line <;> rfl

theorem walls_ofLines (ls : List Text) : (ofLines ls).walls = ls.filterMap wallOn? := by
  have hfold (w : World) : (ls.foldl readLine w).walls = w.walls ++ ls.filterMap wallOn? := by
    induction ls generalizing w with
    | nil => exact (List.append_nil w.walls).symm
    | cons line ls ih =>
        have hline : (w.readLine line).walls = w.walls ++ (wallOn? line).toList := by
          rw [readLine_eq]
          rfl
        rw [List.foldl_cons, ih, hline, List.append_assoc]
        cases hwall : wallOn? line with
        | none => rw [List.filterMap_cons_none hwall]; rfl
        | some wall => rw [List.filterMap_cons_some hwall]; rfl
  exact hfold initial

theorem beepersAt_ofLines (ls : List Text) (cell : Position) :
    (ofLines ls).beepersAt cell = (ls.filterMap (countOn? cell)).getLast?.getD 0 := by
  refine foldl_readLine_last (fun w => w.beepersAt cell) (fun w line => ?_) ls initial
  rw [readLine_eq, countOn?]
  cases pileOn? line with
  | none => rfl
  | some pile =>
      show (w.beepers.set pile.cell pile.count).count cell = _
      simp only [Layout.count_set, Option.filter_some, decide_eq_true_eq]
      split <;> rfl

theorem agent_ofLines (ls : List Text) : (ofLines ls).agent = (ls.filterMap poseOn?).getLast?.getD .start := by
  refine foldl_readLine_last World.agent (fun w line => ?_) ls initial
  rw [readLine_eq]
  rfl

theorem bag_ofLines (ls : List Text) : (ofLines ls).bag = (ls.filterMap bagOn?).getLast?.getD .empty := by
  refine foldl_readLine_last World.bag (fun w line => ?_) ls initial
  rw [readLine_eq]
  rfl

/-! ### Lines that do not matter -/

theorem eq_of_parts {w w' : World} (hsides : (⟨w.width, w.height⟩ : Position) = ⟨w'.width, w'.height⟩)
    (hwalls : w.walls = w'.walls) (hbeepers : ∀ cell, w.beepersAt cell = w'.beepersAt cell)
    (hagent : w.agent = w'.agent) (hbag : w.bag = w'.bag) : w = w' := by
  obtain ⟨hwidth, hheight⟩ := Position.mk.inj hsides
  have hlayout : w.beepers = w'.beepers := Layout.ext_count hbeepers
  cases w
  cases w'
  simp_all

/-- Lines that declare the same walls and last declare the same of everything else describe one world. -/
theorem ofLines_congr {ls ls' : List Text}
    (hsides : (ls.filterMap sidesOn?).getLast? = (ls'.filterMap sidesOn?).getLast?)
    (hwalls : ls.filterMap wallOn? = ls'.filterMap wallOn?)
    (hcounts : ∀ cell, (ls.filterMap (countOn? cell)).getLast? = (ls'.filterMap (countOn? cell)).getLast?)
    (hposes : (ls.filterMap poseOn?).getLast? = (ls'.filterMap poseOn?).getLast?)
    (hbags : (ls.filterMap bagOn?).getLast? = (ls'.filterMap bagOn?).getLast?) : ofLines ls = ofLines ls' := by
  apply eq_of_parts
  · rw [sides_ofLines, sides_ofLines, hsides]
  · rw [walls_ofLines, walls_ofLines, hwalls]
  · intro cell
    rw [beepersAt_ofLines, beepersAt_ofLines, hcounts]
  · rw [agent_ofLines, agent_ofLines, hposes]
  · rw [bag_ofLines, bag_ofLines, hbags]

/-- A line that has no say in a world: each thing that it declares is declared again by a line below, and it
declares no wall. -/
structure Spare (line : Text) (below : List Text) : Prop where
  sides : (sidesOn? line).isSome = true → ∃ l ∈ below, (sidesOn? l).isSome = true
  wall : wallOn? line = none
  pile : ∀ pile ∈ pileOn? line, ∃ l ∈ below, ∃ later ∈ pileOn? l, later.cell = pile.cell
  pose : (poseOn? line).isSome = true → ∃ l ∈ below, (poseOn? l).isSome = true
  bag : (bagOn? line).isSome = true → ∃ l ∈ below, (bagOn? l).isSome = true

theorem getLast?_filterMap_insert {α : Type} {value? : Text → Option α} {line : Text} {below : List Text}
    (h : (value? line).isSome = true → ∃ l ∈ below, (value? l).isSome = true) (above : List Text) :
    ((above ++ line :: below).filterMap value?).getLast? = ((above ++ below).filterMap value?).getLast? := by
  rw [List.filterMap_append, List.filterMap_append, List.getLast?_append, List.getLast?_append]
  cases hvalue : value? line with
  | none => rw [List.filterMap_cons_none hvalue]
  | some value =>
      obtain ⟨l, hl, hlater⟩ := h (by rw [hvalue]; rfl)
      obtain ⟨later, hlater⟩ := Option.isSome_iff_exists.1 hlater
      have hne : below.filterMap value? ≠ [] := List.ne_nil_of_mem (List.mem_filterMap.2 ⟨l, hl, hlater⟩)
      obtain ⟨last, hlast⟩ := Option.ne_none_iff_exists'.1 (mt List.getLast?_eq_none_iff.1 hne)
      rw [List.filterMap_cons_some hvalue, List.getLast?_cons, hlast]
      rfl

theorem ofLines_insert {line : Text} {below : List Text} (h : Spare line below) (above : List Text) :
    ofLines (above ++ line :: below) = ofLines (above ++ below) := by
  refine ofLines_congr (getLast?_filterMap_insert h.sides above) ?_ (fun cell => ?_)
    (getLast?_filterMap_insert h.pose above) (getLast?_filterMap_insert h.bag above)
  · rw [List.filterMap_append, List.filterMap_append, List.filterMap_cons_none h.wall]
  · apply getLast?_filterMap_insert
    intro hcount
    obtain ⟨count, hcount⟩ := Option.isSome_iff_exists.1 hcount
    obtain ⟨pile, hpile, -⟩ := Option.map_eq_some_iff.1 hcount
    obtain ⟨hpile, hcell⟩ := Option.filter_eq_some_iff.1 hpile
    obtain ⟨l, hl, later, hlater, hsame⟩ := h.pile pile hpile
    refine ⟨l, hl, ?_⟩
    rw [countOn?, hlater, Option.filter_some, hsame, if_pos hcell]
    rfl

theorem filterMap_swap {α : Type} {value? : Text → Option α} {line line' : Text}
    (h : value? line = none ∨ value? line' = none) (above below : List Text) :
    (above ++ line :: line' :: below).filterMap value? = (above ++ line' :: line :: below).filterMap value? := by
  rw [List.filterMap_append, List.filterMap_append]
  rcases h with h | h
  · rw [List.filterMap_cons_none h, List.filterMap_cons, List.filterMap_cons, List.filterMap_cons_none h]
  · rw [List.filterMap_cons, List.filterMap_cons_none h, List.filterMap_cons_none h, List.filterMap_cons]

theorem ofLines_swap {line line' : Text} (h : keywordOf? line ≠ keywordOf? line') (above below : List Text) :
    ofLines (above ++ line :: line' :: below) = ofLines (above ++ line' :: line :: below) := by
  have hpile : pileOn? line = none ∨ pileOn? line' = none := on?_eq_none_or h
  refine ofLines_congr (congrArg _ (filterMap_swap (on?_eq_none_or h) above below))
    (filterMap_swap (on?_eq_none_or h) above below) (fun cell => congrArg _ (filterMap_swap ?_ above below))
    (congrArg _ (filterMap_swap (on?_eq_none_or h) above below))
    (congrArg _ (filterMap_swap (on?_eq_none_or h) above below))
  exact hpile.imp (countOn?_eq_none · cell) (countOn?_eq_none · cell)

theorem filterMap_countOn? (ls : List Text) (cell : Position) :
    ls.filterMap (countOn? cell) = ((ls.filterMap pileOn?).filter (·.cell = cell)).map (·.count) := by
  rw [List.filter_filterMap, List.map_filterMap]
  rfl

/-- The last line that declares something decides. The sides of the grid are those of the last line that gives
them as positive numbers, the robot, the bag and each cell are as the last line says that declares them, and
the walls are all that are declared, in order. So a line that has no say can be put in or left out, and two
adjacent lines with different keywords can change places. -/
theorem parse_last_writer_wins (text : String) :
    let ls := Text.lines text.toList
    (⟨(parse text).width, (parse text).height⟩ : Position) = (ls.filterMap sidesOn?).getLast?.getD ⟨1, 1⟩ ∧
    (parse text).walls = ls.filterMap wallOn? ∧
    (∀ cell, (parse text).beepersAt cell =
      (((ls.filterMap pileOn?).filter (·.cell = cell)).getLast?.map (·.count)).getD 0) ∧
    (parse text).agent = (ls.filterMap poseOn?).getLast?.getD ⟨⟨1, 1⟩, .east⟩ ∧
    (parse text).bag = (ls.filterMap bagOn?).getLast?.getD (.finite 0) ∧
    (∀ above line below (text' : String), ls = above ++ line :: below → Spare line below →
      Text.lines text'.toList = above ++ below → parse text' = parse text) ∧
    (∀ above line line' below (text' : String), ls = above ++ line :: line' :: below →
      keywordOf? line ≠ keywordOf? line' → Text.lines text'.toList = above ++ line' :: line :: below →
      parse text' = parse text) := by
  intro ls
  rw [parse_eq_ofLines]
  refine ⟨sides_ofLines ls, walls_ofLines ls, ?_, agent_ofLines ls, bag_ofLines ls, ?_, ?_⟩
  · intro cell
    rw [beepersAt_ofLines, filterMap_countOn?, List.getLast?_map]
  · intro above line below text' hls hspare htext'
    rw [parse_eq_ofLines, htext', ← ofLines_insert hspare, ← hls]
  · intro above line line' below text' hls hkeyword htext'
    rw [parse_eq_ofLines, htext', ← ofLines_swap hkeyword, ← hls]

theorem parse_last_writer_wins_pose :
    let first := "Karel: (4, 4); north".toList
    let pose := "karel:(2,3);WEST".toList
    let bag := "BeeperBag: lots".toList
    Spare first [pose, bag] ∧ keywordOf? pose ≠ keywordOf? bag ∧
      parse "karel:(2,3);WEST\nBeeperBag: lots" = parse "Karel: (4, 4); north\nkarel:(2,3);WEST\nBeeperBag: lots" ∧
      parse "BeeperBag: lots\nkarel:(2,3);WEST" = parse "karel:(2,3);WEST\nBeeperBag: lots" := by
  intro first pose bag
  have hspare : Spare first [pose, bag] := by
    have hpile : pileOn? first = none := by decide +kernel
    have hpose : (poseOn? pose).isSome = true := by decide +kernel
    refine ⟨fun h => ?_, by decide +kernel, fun pile h => ?_, fun _ => ⟨pose, List.mem_cons_self, hpose⟩, fun h => ?_⟩
    · exact absurd h (by decide +kernel)
    · rw [hpile] at h
      cases h
    · exact absurd h (by decide +kernel)
  have hkeyword : keywordOf? pose ≠ keywordOf? bag := by decide +kernel
  obtain ⟨-, -, -, -, -, hinsert, -⟩ :=
    parse_last_writer_wins "Karel: (4, 4); north\nkarel:(2,3);WEST\nBeeperBag: lots"
  obtain ⟨-, -, -, -, -, -, hswap⟩ := parse_last_writer_wins "karel:(2,3);WEST\nBeeperBag: lots"
  refine ⟨hspare, hkeyword, ?_, ?_⟩
  · exact hinsert [] first [pose, bag] _ (by decide) hspare (by decide)
  · exact hswap [] pose bag [] _ (by decide) hkeyword (by decide)

end World

end GridRobot
