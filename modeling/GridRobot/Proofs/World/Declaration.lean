import GridRobot.Proofs.World.Scan

/-!
# Declarations read back

A declaration is read in another way than it is written: its line is cut at colons, trimmed and put in
small letters, and a pattern is looked for anywhere in what is left. This module shows that the two agree
on every line that is written. `Declaration.read?_render` is what the rest of the theory uses.
-/

namespace GridRobot

/-! ### Patterns -/

namespace Scan

theorem isNumeral_numeral (n : UInt32) : IsNumeral n (Text.numeral n.toNat) where
  nonempty := Text.numeral_ne_nil n.toNat
  inside _ hc := Text.isDigit_of_mem_numeral hc
  value := Text.numeralValue_numeral n.toNat

theorem number_numeral (n : UInt32) : number (Text.numeral n.toNat) = some (n, []) :=
  number_eq_some_iff.2 ⟨_, Text.spanDigits_eq_iff.1 (Text.spanDigits_numeral n.toNat), isNumeral_numeral n⟩

theorem cell_append (p : Position) (rest : Text) :
    cell (Declaration.renderCell p ++ rest) = some (p, rest) := by
  have hgap : ∀ c ∈ [' '], Text.isGap c = true := List.all_eq_true.1 (by decide)
  have hcell : WritesCell p rest _ := .mk (isNumeral_numeral p.x) hgap (isNumeral_numeral p.y)
  rw [cell_eq_some_iff]
  simpa [Declaration.renderCell] using hcell

theorem direction_name (d : Direction) : direction d.name.toList = some (d, []) := by
  cases d <;> rfl

/-- A match right at the front is the leftmost one. -/
theorem leftmost_of_match {α : Type} {pattern : Pattern α} {t rest : Text} {a : α} (hne : t ≠ [])
    (h : pattern t = some (a, rest)) : leftmost pattern t = some a := by
  obtain ⟨c, cs, rfl⟩ := List.exists_cons_of_ne_nil hne
  rw [leftmost, h]

theorem leftmost_cell (p : Position) : leftmost cell (Declaration.renderCell p) = some p := by
  have hcell := cell_append p []
  rw [List.append_nil] at hcell
  exact leftmost_of_match (List.cons_ne_nil _ _) hcell

theorem leftmost_cellThen {α : Type} {next : Pattern α} (p : Position) {t rest : Text} {a : α}
    (ht : t.Solid) (hnext : next t = some (a, rest)) :
    leftmost (cellThen next) (Declaration.renderCell p ++ "; ".toList ++ t) = some (p, a) := by
  have hskip : Text.skipGap (' ' :: t) = t := Text.skipGap_replicate_append 1 ht.isGap_head
  have hmatch : cellThen next (Declaration.renderCell p ++ "; ".toList ++ t) = some ((p, a), rest) := by
    rw [List.append_assoc]
    simp [cellThen, cell_append, Text.expect?, hskip, hnext]
  exact leftmost_of_match (List.append_ne_nil_of_right_ne_nil _ ht.nonempty) hmatch

end Scan

/-! ### Keyword and parameters -/

namespace Text

/-- Characters that reading a line leaves as they are: they are small, and no line is cut at them. -/
def isPlain (c : Char) : Bool := smallForm c == [c] && c != ':' && c != '\n'

theorem smallForm_of_isPlain {c : Char} (h : isPlain c = true) : smallForm c = [c] := by
  simp only [isPlain, Bool.and_eq_true, beq_iff_eq] at h
  exact h.1.1

theorem toSmall_of_isPlain {t : Text} (h : ∀ c ∈ t, isPlain c = true) : toSmall t = t := by
  induction t with
  | nil => rfl
  | cons c t ih =>
      obtain ⟨hc, ht⟩ := List.forall_mem_cons.1 h
      rw [toSmall] at ih ⊢
      rw [List.flatMap_cons, smallForm_of_isPlain hc, ih ht, List.singleton_append]

theorem isPlain_of_isDigit {c : Char} (h : c.isDigit = true) : isPlain c = true := by
  have hbounds : 48 ≤ c.toNat ∧ c.toNat < 58 := by
    simp only [Char.isDigit, Bool.and_eq_true, decide_eq_true_eq, ge_iff_le,
      UInt32.le_iff_toNat_le] at h
    exact ⟨h.1, Nat.lt_succ_of_le h.2⟩
  have hplain : ∀ n < 58, 48 ≤ n → isPlain (Char.ofNat n) = true := by decide
  have hc := hplain c.toNat hbounds.2 hbounds.1
  rwa [Char.ofNat_toNat] at hc

end Text

namespace Declaration

theorem toList_showWord (n : UInt32) : (showWord n).toList = Text.numeral n.toNat :=
  String.toList_ofList

theorem isPlain_numeral (n : Nat) : ∀ c ∈ Text.numeral n, Text.isPlain c = true :=
  fun _ hc => Text.isPlain_of_isDigit (Text.isDigit_of_mem_numeral hc)

theorem isPlain_renderCell (p : Position) : ∀ c ∈ renderCell p, Text.isPlain c = true := by
  intro c hc
  simp only [renderCell, List.cons_append, List.append_assoc, List.mem_cons, List.mem_append,
    List.not_mem_nil, or_false] at hc
  rcases hc with rfl | hc | rfl | rfl | hc | rfl
  · decide
  · exact isPlain_numeral _ c hc
  · decide
  · decide
  · exact isPlain_numeral _ c hc
  · decide

theorem isPlain_name (d : Direction) : ∀ c ∈ d.name.toList, Text.isPlain c = true := by
  rw [← List.all_eq_true]
  cases d <;> decide

/-- The keyword of a declaration as it is written. -/
def keyword : Declaration → Text
  | .dimension _ _ => "Dimension".toList
  | .wall _ => "Wall".toList
  | .beeper _ => "Beeper".toList
  | .agent _ => "Karel".toList
  | .bag _ => "BeeperBag".toList

/-- What is written behind the keyword. -/
def params : Declaration → Text
  | .dimension w h => renderCell ⟨w, h⟩
  | .wall w => renderCell w.cell ++ "; ".toList ++ w.side.name.toList
  | .beeper p => renderCell p.cell ++ "; ".toList ++ Text.numeral p.count.toNat
  | .agent p => renderCell p.cell ++ "; ".toList ++ p.facing.name.toList
  | .bag b => b.render.toList

theorem append_colon (word cell mark more : Text) :
    word ++ ": ".toList ++ cell ++ mark ++ more = word ++ ':' :: ' ' :: (cell ++ mark ++ more) := by
  simp

theorem render_eq (d : Declaration) : d.render = d.keyword ++ ':' :: ' ' :: d.params := by
  cases d with
  | dimension w h => rfl
  | wall w => exact append_colon "Wall".toList _ _ _
  | beeper p => exact append_colon "Beeper".toList _ _ _
  | agent p => exact append_colon "Karel".toList _ _ _
  | bag b => rfl

theorem isPlain_params (d : Declaration) : ∀ c ∈ d.params, Text.isPlain c = true := by
  have hthen (p : Position) (t : Text) (ht : ∀ c ∈ t, Text.isPlain c = true) :
      ∀ c ∈ renderCell p ++ "; ".toList ++ t, Text.isPlain c = true := by
    have hmark : ∀ c ∈ "; ".toList, Text.isPlain c = true := List.all_eq_true.1 (by decide)
    intro c hc
    rcases List.mem_append.1 hc with hc | hc
    · rcases List.mem_append.1 hc with hc | hc
      · exact isPlain_renderCell p c hc
      · exact hmark c hc
    · exact ht c hc
  cases d with
  | dimension w h => exact isPlain_renderCell ⟨w, h⟩
  | wall w => exact hthen w.cell _ (isPlain_name w.side)
  | beeper p => exact hthen p.cell _ (isPlain_numeral p.count.toNat)
  | agent p => exact hthen p.cell _ (isPlain_name p.facing)
  | bag b =>
      cases b with
      | finite n =>
          show ∀ c ∈ (showWord n).toList, Text.isPlain c = true
          rw [toList_showWord]
          exact isPlain_numeral n.toNat
      | unbounded =>
          show ∀ c ∈ "infinity".toList, Text.isPlain c = true
          exact List.all_eq_true.1 (by decide)

theorem solid_renderCell (p : Position) : (renderCell p).Solid := by
  have hopen : Text.Solid ['('] := Text.solid_singleton (by decide)
  have hclose : Text.Solid [')'] := Text.solid_singleton (by decide)
  have hsolid := hopen.append_append hclose
    (Text.numeral p.x.toNat ++ ',' :: ' ' :: Text.numeral p.y.toNat)
  simpa [renderCell] using hsolid

theorem solid_name (d : Direction) : Text.Solid d.name.toList := by
  apply Text.solid_of_isWordChar
  · cases d <;> decide
  · rw [← List.all_eq_true]
    cases d <;> decide

theorem isWordChar_keyword (d : Declaration) : ∀ c ∈ d.keyword, Text.isWordChar c = true := by
  rw [← List.all_eq_true]
  unfold keyword
  split <;> decide

theorem solid_keyword (d : Declaration) : d.keyword.Solid := by
  have hne : d.keyword ≠ [] := by
    unfold keyword
    split <;> decide
  exact Text.solid_of_isWordChar hne d.isWordChar_keyword

theorem solid_params (d : Declaration) : d.params.Solid := by
  cases d with
  | dimension w h => exact solid_renderCell ⟨w, h⟩
  | wall w => exact (solid_renderCell w.cell).append_append (solid_name w.side) "; ".toList
  | beeper p => exact (solid_renderCell p.cell).append_append (Text.solid_numeral p.count.toNat) "; ".toList
  | agent p => exact (solid_renderCell p.cell).append_append (solid_name p.facing) "; ".toList
  | bag b =>
      cases b with
      | finite n =>
          show Text.Solid (showWord n).toList
          rw [toList_showWord]
          exact Text.solid_numeral n.toNat
      | unbounded =>
          show Text.Solid "infinity".toList
          exact Text.solid_of_isWordChar (by decide) (List.all_eq_true.1 (by decide))

/-- The line of a declaration is taken apart into what it was put together from. -/
theorem parts?_render (d : Declaration) : parts? d.render = some (d.keyword.toSmall, d.params) := by
  have hkeyword : ':' ∉ d.keyword := fun hmem => absurd (d.isWordChar_keyword ':' hmem) (by decide)
  have hparams : ':' ∉ ' ' :: d.params := by
    rw [List.mem_cons, not_or]
    exact ⟨by decide, fun hmem => absurd (isPlain_params d ':' hmem) (by decide)⟩
  have hline : d.render.Solid := by
    rw [render_eq]
    simpa using (solid_keyword d).append_append (solid_params d) [':', ' ']
  have htrim : d.render.trim = d.render := hline.trim_replicate_append 0
  have htrimKeyword : d.keyword.trim = d.keyword := (solid_keyword d).trim_replicate_append 0
  have htrimParams : Text.trim (' ' :: d.params) = d.params := (solid_params d).trim_replicate_append 1
  rw [parts?, htrim, render_eq, Text.pieces_append_cons hkeyword, Text.pieces_of_not_mem hparams]
  simp only [htrimKeyword, htrimParams, Text.toSmall_of_isPlain (isPlain_params d)]

theorem newline_not_mem_render (d : Declaration) : '\n' ∉ d.render := by
  rw [render_eq, List.mem_append, List.mem_cons, List.mem_cons]
  rintro (hmem | hmem | hmem | hmem)
  · exact absurd (d.isWordChar_keyword '\n' hmem) (by decide)
  · cases hmem
  · cases hmem
  · exact absurd (d.isPlain_params '\n' hmem) (by decide)

/-! ### Reading -/

theorem readBag_render (b : Bag) : readBag b.render.toList = b := by
  cases b with
  | unbounded => exact if_pos (.inl rfl)
  | finite n =>
      show readBag (showWord n).toList = _
      rw [toList_showWord]
      have hdigits : ∀ c ∈ Text.numeral n.toNat, c.isDigit = true := fun _ hc =>
        Text.isDigit_of_mem_numeral hc
      have hword : ¬ (Text.numeral n.toNat = "infinity".toList ∨
          Text.numeral n.toNat = "infinite".toList) := by
        rintro (h | h)
        · exact absurd (hdigits 'i' (h ▸ by decide)) (by decide)
        · exact absurd (hdigits 'i' (h ▸ by decide)) (by decide)
      have hsign : ∀ rest, Text.numeral n.toNat ≠ '+' :: rest := by
        intro rest h
        exact absurd (hdigits '+' (h ▸ List.mem_cons_self)) (by decide)
      unfold readBag
      rw [if_neg hword]
      split
      · next rest h => exact absurd h (hsign rest)
      · simp only [Text.spanDigits_numeral, Text.isEmpty_numeral, Text.word32?_numeral]
        rfl

theorem one_le_iff_ne_zero (n : UInt32) : 1 ≤ n ↔ n ≠ 0 := by
  rw [UInt32.le_iff_toNat_le, ne_eq, ← UInt32.toNat_inj]
  exact Nat.one_le_iff_ne_zero

/-- A declaration says something unless it makes a grid without cells. -/
def Effective : Declaration → Prop
  | .dimension w h => 1 ≤ w ∧ 1 ≤ h
  | _ => True

instance : (d : Declaration) → Decidable d.Effective
  | .dimension w h => inferInstanceAs (Decidable (1 ≤ w ∧ 1 ≤ h))
  | .wall _ | .beeper _ | .agent _ | .bag _ => isTrue trivial

theorem effective_of_read? {line : Text} {d : Declaration} (h : read? line = some d) : d.Effective := by
  obtain ⟨⟨keyword, params⟩, -, hparts⟩ := Option.bind_eq_some_iff.1 h
  replace h : ofParts? keyword params = some d := hparts
  unfold ofParts? at h
  split at h
  · obtain ⟨p, -, h⟩ := Option.bind_eq_some_iff.1 h
    split at h
    · cases h
    · next hsides =>
        cases h
        rw [Effective, one_le_iff_ne_zero, one_le_iff_ne_zero]
        exact not_or.1 hsides
  · split at h
    · obtain ⟨_, -, rfl⟩ := Option.map_eq_some_iff.1 h
      trivial
    · split at h
      · obtain ⟨_, -, rfl⟩ := Option.map_eq_some_iff.1 h
        trivial
      · split at h
        · obtain ⟨_, -, rfl⟩ := Option.map_eq_some_iff.1 h
          trivial
        · split at h
          · cases h
            trivial
          · cases h

theorem read?_render (d : Declaration) : read? d.render = if d.Effective then some d else none := by
  rw [read?, parts?_render, Option.bind_some]
  cases d with
  | dimension w h =>
      show readDimension? (renderCell ⟨w, h⟩) = if 1 ≤ w ∧ 1 ≤ h then some (dimension w h) else none
      rw [readDimension?, Scan.leftmost_cell]
      simp only [one_le_iff_ne_zero]
      by_cases hw : w = 0 <;> by_cases hh : h = 0 <;> simp [hw, hh]
  | wall w =>
      have hmatch := Scan.leftmost_cellThen w.cell (solid_name w.side) (Scan.direction_name w.side)
      exact congrArg (Option.map _) hmatch
  | beeper p =>
      have hmatch := Scan.leftmost_cellThen p.cell (Text.solid_numeral _) (Scan.number_numeral p.count)
      exact congrArg (Option.map _) hmatch
  | agent p =>
      have hmatch := Scan.leftmost_cellThen p.cell (solid_name p.facing) (Scan.direction_name p.facing)
      exact congrArg (Option.map _) hmatch
  | bag b => exact congrArg (fun b => some (bag b)) (readBag_render b)

end Declaration

end GridRobot
