import GridRobot.Proofs.Text.Basic
import GridRobot.Proofs.Text.Offset

/-!
# The line that holds an offset

The index of a text is searched by halving, and the number of a line is read off the place where the search
ends. What carries the search is that all starts before the part that is left are smaller than the offset and
all behind it are greater (`Slot.isAt_search`). So the number is that of the lines that start at the offset
or before it (`LineIndex.lineNumber_eq_countP`). As each line but the first starts behind a line feed, it is one
more than the line feeds before the offset (`Text.lineNumber_eq`). That count only grows with the offset, which
settles for each line that is listed which offsets are on it (`Text.IsLine.lineNumber_eq_iff`).

A number that is given out is the word of the number that is counted, and the two are the same as long as there
are fewer than `UInt32.size - 1` line feeds (`Text.toNat_lineOfOffset`, `Text.map_listing`).
-/

namespace GridRobot

/-! ### The search -/

namespace Slot

/-- Where a number stands in an ascending list, or between which numbers it would have to stand. -/
inductive IsAt (numbers : List Nat) (x : Nat) : Slot → Prop where
  | found {i : Nat} (h : numbers[i]? = some x) : IsAt numbers x (.found i)
  | vacant {i : Nat} (hle : i ≤ numbers.length) (hbelow : ∀ n ∈ numbers.take i, n < x)
      (habove : ∀ n ∈ numbers.drop i, x < n) : IsAt numbers x (.vacant i)

theorem le_of_mem_take {numbers : List Nat} (h : numbers.Pairwise (· < ·)) {i x : Nat}
    (hx : numbers[i]? = some x) : ∀ n ∈ numbers.take (i + 1), n ≤ x := by
  obtain ⟨hi, rfl⟩ := List.getElem?_eq_some_iff.1 hx
  rw [← List.take_append_drop i numbers, List.drop_eq_getElem_cons hi, List.pairwise_append] at h
  intro n hn
  rw [List.take_add_one, hx, List.mem_append] at hn
  rcases hn with hn | hn
  · exact Nat.le_of_lt (h.2.2 n hn _ List.mem_cons_self)
  · exact Nat.le_of_eq (List.mem_singleton.1 hn)

theorem lt_of_mem_drop {numbers : List Nat} (h : numbers.Pairwise (· < ·)) {i x : Nat}
    (hx : numbers[i]? = some x) : ∀ n ∈ numbers.drop (i + 1), x < n := by
  obtain ⟨hi, rfl⟩ := List.getElem?_eq_some_iff.1 hx
  have hrest := h.sublist (List.drop_sublist i numbers)
  rw [List.drop_eq_getElem_cons hi] at hrest
  exact (List.pairwise_cons.1 hrest).1

/-- A search ends where the number stands, if all numbers before the part that is searched are smaller and all
behind it are greater. -/
theorem isAt_search {numbers : Array Nat} (h : numbers.toList.Pairwise (· < ·)) {x low high : Nat}
    {hsize : high ≤ numbers.size} (hle : low ≤ high) (hbelow : ∀ n ∈ numbers.toList.take low, n < x)
    (habove : ∀ n ∈ numbers.toList.drop high, x < n) :
    IsAt numbers.toList x (search numbers x low high hsize) := by
  have hat {i : Nat} (hi : i < numbers.size) : numbers.toList[i]? = some numbers[i] := by
    rw [Array.getElem?_toList, Array.getElem?_eq_getElem hi]
  fun_induction search numbers x low high hsize with
  | case1 low high hsize hlow middle hmiddle hx =>
      rw [← hx]
      exact .found (hat hmiddle)
  | case2 low high hsize hlow middle hmiddle hx hless ih =>
      refine ih (by omega) ?_ habove
      intro n hn
      exact Nat.lt_of_le_of_lt (le_of_mem_take h (hat hmiddle) n hn) hless
  | case3 low high hsize hlow middle hmiddle hx hless ih =>
      have hgreater : x < numbers[middle] := by omega
      refine ih (by omega) hbelow ?_
      intro n hn
      rw [List.drop_eq_getElem_cons hmiddle, Array.getElem_toList, List.mem_cons] at hn
      rcases hn with rfl | hn
      · exact hgreater
      · exact Nat.lt_trans hgreater (lt_of_mem_drop h (hat hmiddle) n hn)
  | case4 low high hsize hlow =>
      obtain rfl : low = high := Nat.le_antisymm hle (Nat.not_lt.1 hlow)
      exact .vacant hsize hbelow habove

theorem countP_eq_of_sides {numbers : List Nat} {i x : Nat} (hi : i ≤ numbers.length)
    (hbelow : ∀ n ∈ numbers.take i, n ≤ x) (habove : ∀ n ∈ numbers.drop i, x < n) :
    numbers.countP (· ≤ x) = i := by
  have htake : (numbers.take i).countP (· ≤ x) = (numbers.take i).length :=
    List.countP_eq_length.2 fun n hn => decide_eq_true (hbelow n hn)
  have hdrop : (numbers.drop i).countP (· ≤ x) = 0 := by
    refine List.countP_eq_zero.2 fun n hn hle => ?_
    exact Nat.not_lt.2 (of_decide_eq_true hle) (habove n hn)
  rw [← List.take_append_drop i numbers, List.countP_append, htake, hdrop, List.length_take,
    Nat.min_eq_left hi, Nat.add_zero]

end Slot

namespace LineIndex

theorem isAt_search (index : LineIndex) (offset : Nat) :
    Slot.IsAt index.starts.toList offset
      (Slot.search index.starts offset 0 index.starts.size (Nat.le_refl _)) := by
  refine Slot.isAt_search index.ascending (Nat.zero_le _) ?_ ?_
  · intro n hn
    cases hn
  · intro n hn
    rw [← Array.length_toList, List.drop_length] at hn
    cases hn

/-- The line at an offset has the number of the lines that start there or before. The first line starts at zero,
so no offset has its place in front of it. -/
theorem lineNumber_eq_countP (index : LineIndex) (offset : Nat) :
    index.lineNumber offset = index.starts.toList.countP (· ≤ offset) := by
  have hat := index.isAt_search offset
  rw [lineNumber, position]
  generalize Slot.search index.starts offset 0 index.starts.size (Nat.le_refl _) = slot at hat ⊢
  cases hat with
  | @found i hoffset =>
      obtain ⟨hi, -⟩ := List.getElem?_eq_some_iff.1 hoffset
      have hbelow := Slot.le_of_mem_take index.ascending hoffset
      have habove := Slot.lt_of_mem_drop index.ascending hoffset
      exact (Slot.countP_eq_of_sides hi hbelow habove).symm
  | @vacant i hle hbelow habove =>
      have hcount := Slot.countP_eq_of_sides hle (fun n hn => Nat.le_of_lt (hbelow n hn)) habove
      have hpos : 0 < index.starts.toList.countP (· ≤ offset) :=
        List.countP_pos_iff.2 ⟨0, List.mem_of_mem_head? index.first, decide_eq_true (Nat.zero_le offset)⟩
      rw [hcount] at hpos ⊢
      exact Nat.sub_add_cancel hpos

theorem starts_ofText (t : Text) : (ofText t).starts.toList = 0 :: Text.startsBehind 0 t := rfl

end LineIndex

/-! ### Lines that start behind line feeds -/

namespace Text

/-- The lines of a text that start behind its first one and not behind an offset. An offset that lies inside a
character is inside one that is no line feed. -/
theorem countP_startsBehind (start offset : Nat) (t : Text) :
    (startsBehind start t).countP (· ≤ start + offset) = breaksBefore offset t := by
  induction t generalizing start offset with
  | nil => cases offset <;> rfl
  | cons c t ih =>
      cases offset with
      | zero =>
          refine List.countP_eq_zero.2 fun n hn hle => ?_
          exact Nat.not_lt.2 (of_decide_eq_true hle) (lt_of_mem_startsBehind hn)
      | succ n =>
          rw [breaksBefore]
          simp only [startsBehind]
          by_cases hwhole : c.utf8Size ≤ n + 1
          · have hrest : start + (n + 1) = start + c.utf8Size + (n + 1 - c.utf8Size) := by omega
            have hcount := ih (start + c.utf8Size) (n + 1 - c.utf8Size)
            rw [← hrest] at hcount
            split
            · have hhere : start + c.utf8Size ≤ start + (n + 1) := Nat.add_le_add_left hwhole start
              rw [List.countP_cons, if_pos (decide_eq_true hhere), hcount, Nat.add_comm]
            · rw [hcount, Nat.zero_add]
          · have hc : c ≠ '\n' := by
              rintro rfl
              exact hwhole (Nat.le_add_left 1 n)
            rw [if_neg hc, if_neg hc, Nat.sub_eq_zero_of_le (by omega), breaksBefore, List.countP_eq_zero]
            intro start' hstart hle
            have hlt := lt_of_mem_startsBehind hstart
            have hle := of_decide_eq_true hle
            omega

theorem lineNumber_eq (t : Text) (offset : Nat) :
    (LineIndex.ofText t).lineNumber offset = 1 + breaksBefore offset t := by
  have hcount := countP_startsBehind 0 offset t
  rw [Nat.zero_add] at hcount
  rw [LineIndex.lineNumber_eq_countP, LineIndex.starts_ofText, List.countP_cons, hcount,
    if_pos (decide_eq_true (Nat.zero_le offset)), Nat.add_comm]

theorem lineNumber_byteLength (above rest : Text) :
    (LineIndex.ofText (above ++ rest)).lineNumber above.byteLength = above.breaks + 1 := by
  rw [lineNumber_eq, breaksBefore_byteLength, Nat.add_comm]

theorem lineNumber_le (t : Text) (offset : Nat) : (LineIndex.ofText t).lineNumber offset ≤ t.breaks + 1 := by
  rw [lineNumber_eq, Nat.add_comm]
  exact Nat.succ_le_succ (breaksBefore_le_breaks offset t)

/-- A line of a text, with what stands above it and what stands below it. -/
structure IsLine (t above line below : Text) : Prop where
  text : t = above ++ line ++ below
  starts : above = [] ∨ ∃ earlier, above = earlier ++ ['\n']
  inside : '\n' ∉ line
  ends : below = [] ∨ ∃ later, below = '\n' :: later

/-- Each line that is listed stands in the text, below as many line feeds as lines are listed before it. -/
theorem exists_isLine {t line : Text} {k : Nat} (h : t.lines[k]? = some line) :
    ∃ above below, t.IsLine above line below ∧ above.breaks = k := by
  induction k generalizing t with
  | zero =>
      by_cases hfeed : '\n' ∈ t
      · obtain ⟨first, rest, rfl, hfirst⟩ := List.eq_append_cons_of_mem hfeed
        rw [lines, pieces_append_cons hfirst] at h
        obtain rfl : first = line := Option.some.inj h
        exact ⟨[], '\n' :: rest, ⟨rfl, .inl rfl, hfirst, .inr ⟨rest, rfl⟩⟩, rfl⟩
      · rw [lines, pieces_of_not_mem hfeed] at h
        obtain rfl : t = line := Option.some.inj h
        exact ⟨[], [], ⟨(List.append_nil _).symm, .inl rfl, hfeed, .inl rfl⟩, rfl⟩
  | succ k ih =>
      by_cases hfeed : '\n' ∈ t
      · obtain ⟨first, rest, rfl, hfirst⟩ := List.eq_append_cons_of_mem hfeed
        rw [lines, pieces_append_cons hfirst] at h
        obtain ⟨above, below, hline, habove⟩ := ih h
        refine ⟨first ++ '\n' :: above, below, ⟨?_, .inr ?_, hline.inside, hline.ends⟩, ?_⟩
        · rw [hline.text]
          simp only [List.append_assoc, List.cons_append]
        · rcases hline.starts with rfl | ⟨earlier, rfl⟩
          · exact ⟨first, rfl⟩
          · exact ⟨first ++ '\n' :: earlier, by simp only [List.append_assoc, List.cons_append]⟩
        · rw [breaks_append, breaks_cons_feed, habove, breaks, List.count_eq_zero.2 hfirst, Nat.zero_add]
      · rw [lines, pieces_of_not_mem hfeed] at h
        cases h

theorem breaksBefore_of_eq_append {t above rest : Text} (h : t = above ++ rest) :
    breaksBefore above.byteLength t = above.breaks := by
  rw [h, breaksBefore_byteLength]

/-- The offsets that are on a line are those from its first byte to the line feed that ends it, and on the
last line all that follow. One further to the left has the line feed behind it that ends the line above, and one
further to the right has the line feed before it that ends the line. -/
theorem IsLine.lineNumber_eq_iff {t above line below : Text} (h : t.IsLine above line below) (offset : Nat) :
    (LineIndex.ofText t).lineNumber offset = above.breaks + 1 ↔
      above.byteLength ≤ offset ∧ (offset ≤ above.byteLength + line.byteLength ∨ below = []) := by
  have hline : line.breaks = 0 := List.count_eq_zero.2 h.inside
  rw [lineNumber_eq, Nat.add_comm, Nat.add_right_cancel_iff]
  constructor
  · intro hbreaks
    constructor
    · rcases h.starts with rfl | ⟨earlier, rfl⟩
      · exact Nat.zero_le offset
      · refine Nat.not_lt.1 fun hlt => ?_
        have hleft : offset ≤ earlier.byteLength := by
          rw [byteLength_append] at hlt
          exact Nat.le_of_lt_succ hlt
        have htext : t = earlier ++ (['\n'] ++ line ++ below) := by
          simp only [h.text, List.append_assoc]
        have hmono := breaksBefore_mono hleft t
        rw [hbreaks, breaksBefore_of_eq_append htext, breaks_append] at hmono
        exact Nat.not_succ_le_self _ hmono
    · rcases h.ends with hbelow | ⟨later, rfl⟩
      · exact .inr hbelow
      · refine .inl (Nat.not_lt.1 fun hlt => ?_)
        have hright : (above ++ line ++ ['\n']).byteLength ≤ offset := by
          rw [byteLength_append, byteLength_append]
          exact hlt
        have htext : t = above ++ line ++ ['\n'] ++ later := by
          rw [h.text, List.append_cons]
        have hmono := breaksBefore_mono hright t
        rw [hbreaks, breaksBefore_of_eq_append htext, breaks_append, breaks_append, hline] at hmono
        exact Nat.not_succ_le_self _ hmono
  · rintro ⟨hle, hbelow⟩
    have htext : t = above ++ (line ++ below) := by
      rw [h.text, List.append_assoc]
    have hmono := breaksBefore_mono hle t
    rw [breaksBefore_of_eq_append htext] at hmono
    refine Nat.le_antisymm ?_ hmono
    rcases hbelow with hoffset | rfl
    · have hstop := breaksBefore_of_eq_append h.text
      rw [byteLength_append, breaks_append, hline, Nat.add_zero] at hstop
      rw [← hstop]
      exact breaksBefore_mono hoffset t
    · have hall : t.breaks = above.breaks := by
        rw [h.text, List.append_nil, breaks_append, hline, Nat.add_zero]
      rw [← hall]
      exact breaksBefore_le_breaks offset t

theorem map_fst_numberedLines (t : Text) : t.numberedLines.map Prod.fst = List.range' 1 (1 + t.breaks) := by
  apply List.ext_getElem
  · rw [List.length_map, numberedLines, List.length_mapIdx, length_lines, List.length_range', Nat.add_comm]
  · intro i _ _
    simp only [numberedLines, List.getElem_map, List.getElem_mapIdx, List.getElem_range']
    omega

theorem mem_map_fst_numberedLines {t : Text} {number : Nat} :
    number ∈ t.numberedLines.map Prod.fst ↔ 1 ≤ number ∧ number ≤ t.breaks + 1 := by
  rw [map_fst_numberedLines, List.mem_range'_1]
  omega

/-! ### Numbers that are given out -/

theorem toUInt32_add_one (n : Nat) : n.toUInt32 + 1 = (n + 1).toUInt32 := (UInt32.ofNat_add n 1).symm

/-- The number of a line is given out as its word. -/
theorem lineOfOffset_eq (t : Text) (offset : Nat) :
    t.lineOfOffset offset = ((LineIndex.ofText t).lineNumber offset).toUInt32 := toUInt32_add_one _

/-- The lines that are listed are those that are counted, each with the word of its number. -/
theorem listing_eq (t : Text) : t.listing = t.numberedLines.map fun (number, line) => (number.toUInt32, line) := by
  apply List.ext_getElem?
  intro i
  rw [List.getElem?_map, listing, numberedLines, List.getElem?_mapIdx, List.getElem?_mapIdx, Option.map_map]
  simp only [Function.comp_def, toUInt32_add_one]

theorem toNat_lineOfOffset {t : Text} (h : t.breaks < UInt32.size - 1) (offset : Nat) :
    (t.lineOfOffset offset).toNat = (LineIndex.ofText t).lineNumber offset := by
  rw [lineOfOffset_eq]
  exact UInt32.toNat_ofNat_of_lt' (Nat.lt_of_le_of_lt (t.lineNumber_le offset) (Nat.add_lt_of_lt_sub h))

theorem map_listing {t : Text} (h : t.breaks < UInt32.size - 1) :
    t.listing.map (fun (number, line) => (number.toNat, line)) = t.numberedLines := by
  rw [listing_eq, List.map_map]
  refine (List.map_congr_left ?_).trans (List.map_id _)
  intro line hline
  have hle := (mem_map_fst_numberedLines.1 (List.mem_map_of_mem hline)).2
  exact Prod.ext (UInt32.toNat_ofNat_of_lt' (Nat.lt_of_le_of_lt hle (Nat.add_lt_of_lt_sub h))) rfl

/-- In a text with fewer than `UInt32.size - 1` line feeds the line at an offset is found by counting the bytes
before the offset that are line feeds, be it inside a character or past the end. The bound is one less than the
number of words, since the last line has the number of the line feeds and one more. The lines that are listed have
the numbers from one to there. Each of them stands in the text, and the offsets that lead to its number are those
from its first byte to the line feed that ends it, or for the last line all from its first byte on. -/
theorem lineOfOffset_exact {t : Text} (h : t.breaks < UInt32.size - 1) :
    (∀ offset, (t.lineOfOffset offset).toNat = 1 + (t.bytes.take offset).count 10) ∧
    t.listing.map (·.1.toNat) = List.range' 1 (1 + t.breaks) ∧
    ∀ k number shown, t.listing[k]? = some (number, shown) →
      ∃ above line below, t.IsLine above line below ∧ above.breaks = k ∧ number.toNat = k + 1 ∧
        shown = line.dropReturns ∧
        ∀ offset, t.lineOfOffset offset = number ↔
          above.byteLength ≤ offset ∧ (offset ≤ above.byteLength + line.byteLength ∨ below = []) := by
  refine ⟨?_, ?_, ?_⟩
  · intro offset
    rw [toNat_lineOfOffset h, lineNumber_eq, breaksBefore_eq_count]
  · rw [← map_fst_numberedLines, ← map_listing h, List.map_map]
    rfl
  · intro k number shown hlisted
    have hcounted := congrArg (·[k]?) (map_listing h)
    simp only [List.getElem?_map, hlisted, numberedLines, List.getElem?_mapIdx] at hcounted
    obtain ⟨line, hlines, hentry⟩ := Option.map_eq_some_iff.1 hcounted.symm
    obtain ⟨hnumber, rfl⟩ := Prod.mk.inj hentry
    obtain ⟨above, below, hline, rfl⟩ := exists_isLine hlines
    refine ⟨above, line, below, hline, rfl, hnumber.symm, rfl, fun offset => ?_⟩
    rw [← UInt32.toNat_inj, toNat_lineOfOffset h, ← hnumber]
    exact hline.lineNumber_eq_iff offset

/-- A carriage return and a line feed behind a letter of two bytes. -/
theorem lineOfOffset_exact_returns :
    let t : Text := "é\r\nab".toList
    t.breaks < UInt32.size - 1 ∧ t.listing[0]? = some (1, "é".toList) ∧
      (∃ above line below, t.IsLine above line below ∧ "é".toList = line.dropReturns ∧
        ∀ offset, t.lineOfOffset offset = 1 ↔
          above.byteLength ≤ offset ∧ (offset ≤ above.byteLength + line.byteLength ∨ below = [])) ∧
      (t.lineOfOffset 1).toNat = 1 ∧ (t.lineOfOffset 3).toNat = 1 ∧ (t.lineOfOffset 4).toNat = 2 ∧
      (t.lineOfOffset 100).toNat = 2 := by
  intro t
  have hbreaks : t.breaks < UInt32.size - 1 := by decide
  obtain ⟨hcount, -, hlines⟩ := lineOfOffset_exact hbreaks
  have hfirst : t.listing[0]? = some (1, "é".toList) := by decide
  obtain ⟨above, line, below, hline, -, -, hshown, hoffsets⟩ := hlines 0 1 _ hfirst
  exact ⟨hbreaks, hfirst, ⟨above, line, below, hline, hshown, hoffsets⟩, hcount 1, hcount 3, hcount 4, hcount 100⟩

/-- At the end of a text with `UInt32.size - 1` line feeds there is no number left. -/
theorem lineOfOffset_byteLength_eq_zero {t : Text} (h : t.breaks + 1 = UInt32.size) :
    t.lineOfOffset t.byteLength = 0 := by
  have hnumber := lineNumber_byteLength t []
  rw [List.append_nil, h] at hnumber
  rw [lineOfOffset_eq, hnumber]
  rfl

theorem fst_getLast?_listing (t : Text) : t.listing.getLast?.map Prod.fst = some (t.breaks + 1).toUInt32 := by
  rw [listing, List.getLast?_mapIdx, length_lines, Nat.add_sub_cancel, toUInt32_add_one, lines, pieces,
    List.getLast?_cons]
  rfl

/-- With `UInt32.size - 1` line feeds, which are fewer than `UInt32.size`, the numbers of the last line come to
zero. -/
theorem last_line_without_number :
    let t : Text := List.replicate (UInt32.size - 1) '\n'
    t.breaks < UInt32.size ∧
      (t.lineOfOffset t.byteLength).toNat = 0 ∧ 1 + (t.bytes.take t.byteLength).count 10 = UInt32.size ∧
      t.listing.getLast?.map Prod.fst = some 0 ∧ 1 + t.breaks = UInt32.size := by
  intro t
  have hfeeds : t.breaks = UInt32.size - 1 := List.count_replicate_self
  have hbreaks : t.breaks + 1 = UInt32.size := by
    rw [hfeeds]
    rfl
  have hcount := breaksBefore_byteLength t []
  rw [List.append_nil, breaksBefore_eq_count] at hcount
  refine ⟨?_, ?_, ?_, ?_, ?_⟩
  · rw [← hbreaks]
    exact Nat.lt_succ_self _
  · rw [lineOfOffset_byteLength_eq_zero hbreaks]
    rfl
  · rw [hcount, Nat.add_comm, hbreaks]
  · rw [fst_getLast?_listing, hbreaks]
    rfl
  · rw [Nat.add_comm, hbreaks]

end Text

end GridRobot
