import GridRobot.Proofs.Text.Basic
import GridRobot.World.Declaration

/-!
# What a parameter may look like

Patterns are tried at every place of a text and read it character by character. This module says what they
read without them: the written forms of a cell, and of a cell with a direction or a number behind it
(`Scan.WritesCell`, `Scan.WritesThen`). Each pattern matches exactly its written form, so a search gives
the value that is written at the first place where any is (`Scan.leftmost_eq_some_iff`). A place where the
form is almost there, or where a number is too great, is passed over like any other.
-/

namespace GridRobot

theorem Direction.ofName?_eq_some_iff {name : String} {d : Direction} :
    Direction.ofName? name = some d ↔ d.name = name := by
  constructor
  · intro h
    simpa using List.find?_some h
  · rintro rfl
    cases d <;> rfl

namespace Scan

/-! ### Written forms -/

/-- A run of digits with a 32-bit word for its value. -/
structure IsNumeral (n : UInt32) (digits : Text) : Prop where
  nonempty : digits ≠ []
  inside : ∀ c ∈ digits, c.isDigit = true
  value : Text.numeralValue digits = n.toNat

/-- A cell as it is written, with `rest` behind it. What follows each run of digits is no digit, so the runs
are as long as they can be. -/
inductive WritesCell (p : Position) (rest : Text) : Text → Prop where
  | mk {xs gap ys : Text} (hx : IsNumeral p.x xs) (hgap : ∀ c ∈ gap, Text.isGap c = true)
      (hy : IsNumeral p.y ys) : WritesCell p rest ('(' :: (xs ++ ',' :: (gap ++ (ys ++ ')' :: rest))))

/-- A text starts with a number: its digits, as many as there are, have the number for their value. -/
def WritesNumber (n : UInt32) (t : Text) : Prop :=
  ∃ digits rest, Text.Span Char.isDigit t digits rest ∧ IsNumeral n digits

/-- A text starts with the name of a direction: its word, as long as it can be, is the name in any letter
case. -/
def WritesDirection (d : Direction) (t : Text) : Prop :=
  ∃ word rest, Text.Span Text.isWordChar t word rest ∧ word.map Char.toLower = d.name.toList

/-- A text starts with a cell and, behind a semicolon and a gap, something else. -/
inductive WritesThen {α : Type} (Writes : α → Text → Prop) : Position × α → Text → Prop where
  | mk {p : Position} {a : α} {t gap more : Text} (hcell : WritesCell p (';' :: (gap ++ more)) t)
      (hgap : ∀ c ∈ gap, Text.isGap c = true) (hmore : Writes a more) : WritesThen Writes (p, a) t

/-- The first place of a text where anything is written is one where `a` is. -/
def First {α : Type} (Writes : α → Text → Prop) (t : Text) (a : α) : Prop :=
  ∃ i, Writes a (t.drop i) ∧ ∀ j < i, ∀ b, ¬ Writes b (t.drop j)

/-! ### Searching -/

/-- A pattern matches exactly where its values are written, and nothing is written in an empty text. -/
structure Reads {α : Type} (pattern : Pattern α) (Writes : α → Text → Prop) : Prop where
  iff : ∀ a t, (∃ rest, pattern t = some (a, rest)) ↔ Writes a t
  nil : ∀ a, ¬ Writes a []

variable {α : Type} {pattern : Pattern α} {Writes : α → Text → Prop}

theorem leftmost_cons_of_eq_none {c : Char} {t : Text} (h : pattern (c :: t) = none) :
    leftmost pattern (c :: t) = leftmost pattern t := by
  rw [leftmost, h]

/-- Places where a pattern does not match hide no later one. -/
theorem leftmost_append_of_eq_none {before : Text} (t : Text)
    (h : ∀ i < before.length, pattern ((before ++ t).drop i) = none) :
    leftmost pattern (before ++ t) = leftmost pattern t := by
  induction before with
  | nil => rfl
  | cons c before ih =>
      have hhere : pattern (c :: (before ++ t)) = none := h 0 (Nat.succ_pos _)
      rw [List.cons_append, leftmost_cons_of_eq_none hhere]
      exact ih fun i hi => h (i + 1) (Nat.succ_lt_succ hi)

namespace Reads

variable (hreads : Reads pattern Writes)

include hreads

theorem not_writes_of_eq_none {t : Text} (h : pattern t = none) (a : α) : ¬ Writes a t := by
  intro hwrites
  obtain ⟨rest, hrest⟩ := (hreads.iff a t).2 hwrites
  rw [h] at hrest
  cases hrest

theorem leftmost_eq_some_iff (t : Text) (a : α) : leftmost pattern t = some a ↔ First Writes t a := by
  induction t with
  | nil =>
      simp only [leftmost, reduceCtorEq, false_iff]
      rintro ⟨i, hwrites, -⟩
      rw [List.drop_nil] at hwrites
      exact hreads.nil a hwrites
  | cons c t ih =>
      cases hmatch : pattern (c :: t) with
      | some found =>
          have hhere : Writes found.1 (c :: t) := (hreads.iff _ _).1 ⟨found.2, hmatch⟩
          simp only [leftmost, hmatch, Option.some.injEq]
          constructor
          · rintro rfl
            exact ⟨0, hhere, fun j hj => absurd hj (Nat.not_lt_zero j)⟩
          · rintro ⟨i, hwrites, hfirst⟩
            cases i with
            | succ i => exact absurd hhere (hfirst 0 (Nat.succ_pos i) found.1)
            | zero =>
                obtain ⟨rest, hrest⟩ := (hreads.iff _ _).2 hwrites
                rw [List.drop_zero, hmatch] at hrest
                cases hrest
                rfl
      | none =>
          rw [leftmost_cons_of_eq_none hmatch, ih]
          have hhere := hreads.not_writes_of_eq_none hmatch
          constructor
          · rintro ⟨i, hwrites, hfirst⟩
            refine ⟨i + 1, hwrites, ?_⟩
            intro j hj
            cases j with
            | zero => exact hhere
            | succ j => exact hfirst j (Nat.lt_of_succ_lt_succ hj)
          · rintro ⟨i, hwrites, hfirst⟩
            cases i with
            | zero => exact absurd hwrites (hhere a)
            | succ i => exact ⟨i, hwrites, fun j hj => hfirst (j + 1) (Nat.succ_lt_succ hj)⟩

theorem leftmost_eq_none_iff (t : Text) :
    leftmost pattern t = none ↔ ∀ i a, ¬ Writes a (t.drop i) := by
  induction t with
  | nil => simpa [leftmost] using hreads.nil
  | cons c t ih =>
      cases hmatch : pattern (c :: t) with
      | some found =>
          have hhere : Writes found.1 (c :: t) := (hreads.iff _ _).1 ⟨found.2, hmatch⟩
          simp only [leftmost, hmatch, reduceCtorEq, false_iff]
          exact fun hnone => hnone 0 found.1 hhere
      | none =>
          rw [leftmost_cons_of_eq_none hmatch, ih]
          have hhere := hreads.not_writes_of_eq_none hmatch
          constructor
          · intro hnone i
            cases i with
            | zero => exact hhere
            | succ i => exact hnone i
          · exact fun hnone i => hnone (i + 1)

end Reads

/-! ### Patterns -/

theorem word32?_eq_some_iff {digits : Text} {n : UInt32} :
    Text.word32? digits = some n ↔ digits ≠ [] ∧ Text.numeralValue digits = n.toNat := by
  simp only [Text.word32?, List.isEmpty_iff, Option.ite_none_left_eq_some, Option.ite_none_right_eq_some,
    Option.some.injEq]
  refine and_congr_right fun _ => ?_
  constructor
  · rintro ⟨hlt, rfl⟩
    rw [UInt32.toNat_ofNat_of_lt' hlt]
  · intro hvalue
    refine ⟨hvalue ▸ n.toNat_lt_size, ?_⟩
    rw [hvalue, UInt32.ofNat_toNat]

theorem number_eq_some_iff {t rest : Text} {n : UInt32} :
    number t = some (n, rest) ↔ ∃ digits, Text.Span Char.isDigit t digits rest ∧ IsNumeral n digits := by
  simp only [number, Option.map_eq_some_iff, Prod.mk.injEq, word32?_eq_some_iff]
  constructor
  · rintro ⟨_, ⟨hne, hvalue⟩, rfl, hrest⟩
    have hspan := Text.spanDigits_eq_iff.1 (Prod.ext rfl hrest : t.spanDigits = (t.spanDigits.1, rest))
    exact ⟨_, hspan, hne, hspan.inside, hvalue⟩
  · rintro ⟨digits, hspan, hnumeral⟩
    rw [Text.spanDigits_eq_iff.2 hspan]
    exact ⟨n, ⟨hnumeral.nonempty, hnumeral.value⟩, rfl, rfl⟩

/-- Digits end where another character stands. -/
theorem IsNumeral.span {n : UInt32} {digits : Text} (h : IsNumeral n digits) {c : Char} (hc : c.isDigit = false)
    (rest : Text) : Text.Span Char.isDigit (digits ++ c :: rest) digits (c :: rest) := by
  refine ⟨rfl, h.inside, ?_⟩
  intro d hd
  cases hd
  exact hc

/-- A gap ends where a word starts. -/
theorem skipGap_append_of_head {gap more : Text} (hgap : ∀ c ∈ gap, Text.isGap c = true)
    (hmore : ∃ c ∈ more.head?, Text.isWordChar c = true) : Text.skipGap (gap ++ more) = more := by
  refine Text.skipGap_eq_iff.2 ⟨gap, rfl, hgap, ?_⟩
  obtain ⟨c, hc, hword⟩ := hmore
  intro d hd
  cases hc.symm.trans hd
  exact Text.isGap_eq_false_of_isWordChar hword

theorem IsNumeral.head {n : UInt32} {digits : Text} (h : IsNumeral n digits) (rest : Text) :
    ∃ c ∈ (digits ++ rest).head?, Text.isWordChar c = true := by
  obtain ⟨c, cs, rfl⟩ := List.exists_cons_of_ne_nil h.nonempty
  exact ⟨c, rfl, Text.isWordChar_of_isDigit (h.inside c List.mem_cons_self)⟩

theorem cell_eq_some_iff {t rest : Text} {p : Position} :
    cell t = some (p, rest) ↔ WritesCell p rest t := by
  simp only [cell, Option.bind_eq_bind, Option.bind_eq_some_iff, Text.expect?_eq_some_iff, Prod.exists,
    number_eq_some_iff, Option.pure_def, Option.some.injEq, Prod.mk.injEq]
  constructor
  · rintro ⟨t₁, rfl, x, _, ⟨xs, hxs, hx⟩, t₂, rfl, y, _, ⟨ys, hys, hy⟩, _, rfl, rfl, rfl⟩
    obtain ⟨gap, hgap⟩ := Text.skipGap_eq_iff.1 (Eq.refl t₂.skipGap)
    rw [hxs.text, hgap.text, hys.text]
    exact .mk hx hgap.inside hy
  · rintro @⟨xs, gap, ys, hx, hgap, hy⟩
    have hskip := skipGap_append_of_head hgap (hy.head (')' :: rest))
    refine ⟨_, rfl, p.x, _, ⟨xs, hx.span rfl _, hx⟩, _, rfl, p.y, _, ⟨ys, ?_, hy⟩, _, rfl, rfl, rfl⟩
    rw [hskip]
    exact hy.span rfl rest

theorem direction_eq_some_iff {t rest : Text} {d : Direction} :
    direction t = some (d, rest) ↔
      ∃ word, Text.Span Text.isWordChar t word rest ∧ word.map Char.toLower = d.name.toList := by
  have hread {word : Text} (hword : ∀ c ∈ word, Text.isWordChar c = true) :
      Direction.read? word = some d ↔ word.map Char.toLower = d.name.toList := by
    have htrim : word.trim = word := by
      cases word with
      | nil => rfl
      | cons c cs => exact (Text.solid_of_isWordChar (List.cons_ne_nil c cs) hword).trim_replicate_append 0
    rw [Direction.read?, htrim, Direction.ofName?_eq_some_iff, ← String.toList_inj, String.toList_ofList,
      eq_comm]
    rfl
  simp only [direction, Option.map_eq_some_iff, Prod.mk.injEq]
  constructor
  · rintro ⟨_, hname, rfl, hrest⟩
    have hspan := Text.spanWord_eq_iff.1 (Prod.ext rfl hrest : t.spanWord = (t.spanWord.1, rest))
    exact ⟨_, hspan, (hread hspan.inside).1 hname⟩
  · rintro ⟨word, hspan, hname⟩
    rw [Text.spanWord_eq_iff.2 hspan]
    exact ⟨d, (hread hspan.inside).2 hname, rfl, rfl⟩

theorem WritesDirection.head {d : Direction} {t : Text} (h : WritesDirection d t) :
    ∃ c ∈ t.head?, Text.isWordChar c = true := by
  obtain ⟨word, rest, hspan, hname⟩ := h
  cases word with
  | nil => cases d <;> cases hname
  | cons c cs =>
      rw [hspan.text]
      exact ⟨c, rfl, hspan.inside c List.mem_cons_self⟩

theorem WritesNumber.head {n : UInt32} {t : Text} (h : WritesNumber n t) :
    ∃ c ∈ t.head?, Text.isWordChar c = true := by
  obtain ⟨digits, rest, hspan, hnumeral⟩ := h
  rw [hspan.text]
  exact hnumeral.head rest

theorem reads_cell : Reads cell fun p t => ∃ rest, WritesCell p rest t where
  iff p t := exists_congr fun rest => cell_eq_some_iff
  nil p h := by
    obtain ⟨rest, hcell⟩ := h
    cases hcell

theorem reads_number : Reads number WritesNumber where
  iff n t := by
    simp only [number_eq_some_iff]
    exact exists_comm
  nil n h := by
    obtain ⟨c, hc, -⟩ := h.head
    cases hc

theorem reads_direction : Reads direction WritesDirection where
  iff d t := by
    simp only [direction_eq_some_iff]
    exact exists_comm
  nil d h := by
    obtain ⟨c, hc, -⟩ := h.head
    cases hc

theorem Reads.cellThen (hreads : Reads pattern Writes)
    (hhead : ∀ {a t}, Writes a t → ∃ c ∈ t.head?, Text.isWordChar c = true) :
    Reads (cellThen pattern) (WritesThen Writes) where
  iff := by
    rintro ⟨p, a⟩ t
    simp only [Scan.cellThen, Option.bind_eq_bind, Option.bind_eq_some_iff, Text.expect?_eq_some_iff,
      Prod.exists, cell_eq_some_iff, Option.pure_def, Option.some.injEq, Prod.mk.injEq]
    constructor
    · rintro ⟨_, p, _, hcell, more, rfl, a, rest, hnext, ⟨rfl, rfl⟩, rfl⟩
      obtain ⟨gap, hgap⟩ := Text.skipGap_eq_iff.1 (Eq.refl more.skipGap)
      rw [hgap.text] at hcell
      exact .mk hcell hgap.inside ((hreads.iff _ _).1 ⟨rest, hnext⟩)
    · rintro @⟨_, _, _, gap, more, hcell, hgap, hmore⟩
      obtain ⟨rest, hnext⟩ := (hreads.iff _ _).2 hmore
      refine ⟨rest, p, _, hcell, _, rfl, a, rest, ?_, ⟨rfl, rfl⟩, rfl⟩
      rw [skipGap_append_of_head hgap (hhead hmore)]
      exact hnext
  nil := by
    rintro _ ⟨hcell, -, -⟩
    cases hcell

/-- A search gives exactly what is written at the first place where the form that it looks for is, and
nothing where it is nowhere. A place where it is not hides none behind it. -/
theorem search_reads_first_match (params : Text) :
    (∀ p, leftmost cell params = some p ↔ First (fun p t => ∃ rest, WritesCell p rest t) params p) ∧
    (leftmost cell params = none ↔ ∀ i p rest, ¬ WritesCell p rest (params.drop i)) ∧
    (∀ p d, leftmost (cellThen direction) params = some (p, d) ↔
      First (WritesThen WritesDirection) params (p, d)) ∧
    (leftmost (cellThen direction) params = none ↔
      ∀ i p d, ¬ WritesThen WritesDirection (p, d) (params.drop i)) ∧
    (∀ p n, Declaration.ofParts? "beeper".toList params = some (.beeper ⟨p, n⟩) ↔
      First (WritesThen WritesNumber) params (p, n)) ∧
    (Declaration.ofParts? "beeper".toList params = none ↔
      ∀ i p n, ¬ WritesThen WritesNumber (p, n) (params.drop i)) ∧
    ∀ (α : Type) (pattern : Pattern α) (before : Text),
      (∀ i < before.length, pattern ((before ++ params).drop i) = none) →
      leftmost pattern (before ++ params) = leftmost pattern params := by
  have hdirection := reads_direction.cellThen WritesDirection.head
  have hnumber := reads_number.cellThen WritesNumber.head
  refine ⟨reads_cell.leftmost_eq_some_iff params, ?_, fun p d => hdirection.leftmost_eq_some_iff params (p, d),
    ?_, ?_, ?_, fun α pattern before => leftmost_append_of_eq_none params⟩
  · simpa using reads_cell.leftmost_eq_none_iff params
  · simpa using hdirection.leftmost_eq_none_iff params
  · intro p n
    rw [← hnumber.leftmost_eq_some_iff]
    show Option.map _ (leftmost (cellThen number) params) = _ ↔ _
    simp
  · show Option.map _ (leftmost (cellThen number) params) = _ ↔ _
    simpa using hnumber.leftmost_eq_none_iff params

/-- A number that is too great and a blank before a comma are passed over. -/
theorem search_reads_first_match_late :
    let before := "(4294967296, 1) (7 ,7) (".toList
    let params := "(02,\t4294967295)".toList
    (∀ i < before.length, cell ((before ++ params).drop i) = none) ∧
      leftmost cell (before ++ params) = some ⟨2, 4294967295⟩ := by
  intro before params
  have hnone : ∀ i < before.length, cell ((before ++ params).drop i) = none := by decide
  obtain ⟨hfirst, -, -, -, -, -, happend⟩ := search_reads_first_match params
  refine ⟨hnone, ?_⟩
  rw [happend _ cell before hnone, hfirst]
  have hx : IsNumeral 2 "02".toList := ⟨by decide, List.all_eq_true.1 (by decide), by decide⟩
  have hgap : ∀ c ∈ ['\t'], Text.isGap c = true := List.all_eq_true.1 (by decide)
  have hy : IsNumeral 4294967295 "4294967295".toList := ⟨by decide, List.all_eq_true.1 (by decide), by decide⟩
  exact ⟨0, ⟨[], @WritesCell.mk ⟨2, 4294967295⟩ [] _ _ _ hx hgap hy⟩, fun j hj => absurd hj (Nat.not_lt_zero j)⟩

end Scan

end GridRobot
