import GridRobot.Proofs.Text.Span
import GridRobot.Text.Lines

/-!
# Trimming, cutting and reading numerals

What is written with known marks is cut apart again at these marks: blanks come off the ends of a text,
pieces that do not hold the mark between them stay whole, and a numeral is read back as its number as
long as no digit follows it.
-/

namespace GridRobot

namespace Text

theorem isWordChar_toNat {c : Char} (h : isWordChar c = true) : 48 ≤ c.toNat ∧ c.toNat ≤ 122 := by
  delta isWordChar Char.isAlphanum Char.isAlpha Char.isUpper Char.isLower Char.isDigit at h
  simp only [Bool.or_eq_true, Bool.and_eq_true, decide_eq_true_eq, beq_iff_eq, ge_iff_le,
    UInt32.le_iff_toNat_le] at h
  rcases h with ((⟨hl, hu⟩ | ⟨hl, hu⟩) | ⟨hl, hu⟩) | rfl
  · exact ⟨Nat.le_trans (by decide) hl, Nat.le_trans hu (by decide)⟩
  · exact ⟨Nat.le_trans (by decide) hl, Nat.le_trans hu (by decide)⟩
  · exact ⟨Nat.le_trans (by decide) hl, Nat.le_trans hu (by decide)⟩
  · decide

theorem isBlank_eq_false_of_isWordChar {c : Char} (h : isWordChar c = true) : isBlank c = false := by
  obtain ⟨hl, hu⟩ := isWordChar_toNat h
  simp only [isBlank, Bool.or_eq_false_iff, Bool.and_eq_false_iff, decide_eq_false_iff_not,
    beq_eq_false_iff_ne, ne_eq]
  omega

theorem isGap_eq_false_of_not_isBlank {c : Char} (h : isBlank c = false) : isGap c = false := by
  cases hgap : isGap c with
  | false => rfl
  | true => rw [← h, isBlank_of_isGap hgap]

theorem isGap_eq_false_of_isWordChar {c : Char} (h : isWordChar c = true) : isGap c = false :=
  isGap_eq_false_of_not_isBlank (isBlank_eq_false_of_isWordChar h)

theorem isWordChar_of_isDigit {c : Char} (h : c.isDigit = true) : isWordChar c = true := by
  simp [isWordChar, Char.isAlphanum, h]

theorem trimStart_eq_self {t : Text} (h : ∀ c ∈ t.head?, isBlank c = false) : trimStart t = t := by
  cases t with
  | nil => rfl
  | cons c cs => simp [trimStart, h c rfl]

theorem trimEnd_eq_self {t : Text} (h : ∀ c ∈ t.getLast?, isBlank c = false) : trimEnd t = t := by
  have hhead : ∀ c ∈ t.reverse.head?, isBlank c = false := by simpa using h
  have htrim := trimStart_eq_self hhead
  unfold trimStart at htrim
  rw [trimEnd, htrim, List.reverse_reverse]

theorem trimStart_replicate_append (n : Nat) (t : Text) :
    trimStart (List.replicate n ' ' ++ t) = trimStart t := by
  induction n with
  | zero => rfl
  | succ n ih => simpa [trimStart, List.replicate_succ, isBlank] using ih

/-- The indentation is all that trimming takes from a text whose ends are not blank. -/
theorem trim_replicate_append (n : Nat) {t : Text} (hhead : ∀ c ∈ t.head?, isBlank c = false)
    (hlast : ∀ c ∈ t.getLast?, isBlank c = false) : trim (List.replicate n ' ' ++ t) = t := by
  rw [trim, trimStart_replicate_append, trimStart_eq_self hhead, trimEnd_eq_self hlast]

/-- A blank character behind a text is trimmed off. -/
theorem trim_concat {c : Char} (hc : isBlank c = true) (t : Text) : trim (t ++ [c]) = trim t := by
  have hend (s : Text) : trimEnd (s ++ [c]) = trimEnd s := by simp [trimEnd, hc]
  rw [trim, trimStart, List.dropWhile_append]
  split
  · next hempty =>
      have hnil : trimStart t = [] := List.isEmpty_iff.1 hempty
      rw [List.dropWhile_cons_of_pos hc, List.dropWhile_nil, trim, hnil]
  · exact hend _

theorem head?_trim {c : Char} (hc : isBlank c = false) (n : Nat) (t : Text) :
    (trim (List.replicate n ' ' ++ c :: t)).head? = some c := by
  have hstart : trimStart (c :: t) = c :: t := trimStart_eq_self fun d hd => by
    cases hd
    exact hc
  rw [trim, trimStart_replicate_append, hstart, trimEnd, List.reverse_cons, List.dropWhile_append]
  split
  · rw [List.dropWhile_cons_of_neg (by simp [hc])]
    rfl
  · rw [List.reverse_append]
    rfl

theorem skipGap_replicate_append (n : Nat) {t : Text} (ht : ∀ c ∈ t.head?, isGap c = false) :
    skipGap (List.replicate n ' ' ++ t) = t := by
  refine skipGap_eq_iff.2 ⟨List.replicate n ' ', rfl, ?_, ht⟩
  intro c hc
  rw [List.eq_of_mem_replicate hc]
  rfl

theorem isEmptyLine_concat {c : Char} (hc : isBlank c = true) (t : Text) :
    isEmptyLine (t ++ [c]) = isEmptyLine t := by
  simp [isEmptyLine, hc]

theorem trim_of_isEmptyLine {t : Text} (h : t.isEmptyLine = true) : trim t = [] := by
  have hstart : trimStart t = [] := by
    induction t with
    | nil => rfl
    | cons c t ih =>
        obtain ⟨hc, ht⟩ := Bool.and_eq_true_iff.1 h
        rw [trimStart, List.dropWhile_cons_of_pos hc]
        exact ih ht
  rw [trim, hstart]
  rfl

/-- What does not depend on a carriage return at the end of a text is the same without any. -/
theorem apply_dropReturns {α : Type} {f : Text → α} (hf : ∀ t, f (t ++ ['\r']) = f t) (t : Text) :
    f (dropReturns t) = f t := by
  have hreverse (s : Text) : f (s.dropWhile (· == '\r')).reverse = f s.reverse := by
    induction s with
    | nil => rfl
    | cons c s ih =>
        rw [List.dropWhile_cons]
        split
        · next hc =>
            have hc : c = '\r' := by simpa using hc
            rw [ih, List.reverse_cons, hc, hf]
        · rfl
  rw [dropReturns, hreverse, List.reverse_reverse]

/-- A text with no blank at either end. -/
structure Solid (t : Text) : Prop where
  nonempty : t ≠ []
  head : ∀ c ∈ t.head?, isBlank c = false
  last : ∀ c ∈ t.getLast?, isBlank c = false

theorem Solid.trim_replicate_append {t : Text} (h : t.Solid) (n : Nat) :
    trim (List.replicate n ' ' ++ t) = t :=
  Text.trim_replicate_append n h.head h.last

theorem solid_of_isWordChar {t : Text} (hne : t ≠ []) (h : ∀ c ∈ t, isWordChar c = true) : t.Solid where
  nonempty := hne
  head c hc := isBlank_eq_false_of_isWordChar (h c (List.mem_of_mem_head? hc))
  last c hc := isBlank_eq_false_of_isWordChar (h c (List.mem_of_getLast? hc))

theorem solid_singleton {c : Char} (h : isBlank c = false) : Solid [c] := by
  refine ⟨List.cons_ne_nil c [], ?_, ?_⟩
  all_goals
    intro d hd
    cases hd
    exact h

theorem Solid.isGap_head {t : Text} (h : t.Solid) : ∀ c ∈ t.head?, isGap c = false :=
  fun c hc => isGap_eq_false_of_not_isBlank (h.head c hc)

/-- It does not matter what stands between two solid texts. -/
theorem Solid.append_append {s t : Text} (hs : s.Solid) (ht : t.Solid) (middle : Text) :
    (s ++ middle ++ t).Solid where
  nonempty := List.append_ne_nil_of_right_ne_nil _ ht.nonempty
  head c hc := by
    obtain ⟨d, ds, rfl⟩ := List.exists_cons_of_ne_nil hs.nonempty
    exact hs.head c hc
  last c hc := by
    have hlast := List.getLast?_eq_some_getLast ht.nonempty
    rw [List.getLast?_append, hlast, Option.some_or, ← hlast] at hc
    exact ht.last c hc

theorem cut_append_of_not_mem {mark : Char} {t : Text} (h : mark ∉ t) (rest : Text) :
    cut mark (t ++ rest) = (t ++ (cut mark rest).1, (cut mark rest).2) := by
  induction t with
  | nil => rfl
  | cons c t ih =>
      rw [List.mem_cons, not_or] at h
      simp [cut, ih h.2, Ne.symm h.1]

theorem pieces_of_not_mem {mark : Char} {t : Text} (h : mark ∉ t) : pieces mark t = [t] := by
  have hcut := cut_append_of_not_mem h []
  rw [List.append_nil] at hcut
  rw [pieces, hcut]
  simp [cut]

theorem mem_of_mem_pieces {mark c : Char} {t piece : Text} (hpiece : piece ∈ pieces mark t)
    (hc : c ∈ piece) : c ∈ t := by
  induction t generalizing piece with
  | nil =>
      rw [List.mem_singleton.1 hpiece] at hc
      exact hc
  | cons d t ih =>
      simp only [pieces, cut] at hpiece
      split at hpiece
      · rcases List.mem_cons.1 hpiece with rfl | hpiece
        · exact absurd hc List.not_mem_nil
        · exact List.mem_cons_of_mem d (ih hpiece hc)
      · rcases List.mem_cons.1 hpiece with rfl | hpiece
        · rcases List.mem_cons.1 hc with rfl | hc
          · exact List.mem_cons_self
          · exact List.mem_cons_of_mem d (ih List.mem_cons_self hc)
        · exact List.mem_cons_of_mem d (ih (List.mem_cons_of_mem _ hpiece) hc)

theorem pieces_append_cons {mark : Char} {t : Text} (h : mark ∉ t) (rest : Text) :
    pieces mark (t ++ mark :: rest) = t :: pieces mark rest := by
  rw [pieces, cut_append_of_not_mem h]
  simp [cut, pieces]

/-- Lines that each end with a line feed are the lines of their text, and an empty one follows. -/
theorem lines_flatMap {ls : List Text} (h : ∀ l ∈ ls, '\n' ∉ l) :
    lines (ls.flatMap (· ++ ['\n'])) = ls ++ [[]] := by
  induction ls with
  | nil => rfl
  | cons l ls ih =>
      have hl : '\n' ∉ l := h l List.mem_cons_self
      have hls : ∀ l ∈ ls, '\n' ∉ l := fun l' hl' => h l' (List.mem_cons_of_mem l hl')
      rw [List.flatMap_cons, List.append_assoc, List.singleton_append, lines, pieces_append_cons hl]
      rw [lines] at ih
      rw [ih hls, List.cons_append]

theorem breaks_append (t t' : Text) : breaks (t ++ t') = t.breaks + t'.breaks := List.count_append

theorem breaks_cons_feed (t : Text) : breaks ('\n' :: t) = t.breaks + 1 := List.count_cons_self

theorem breaks_cons_of_ne {c : Char} (hc : c ≠ '\n') (t : Text) : breaks (c :: t) = t.breaks :=
  List.count_cons_of_ne hc

theorem length_lines (t : Text) : t.lines.length = t.breaks + 1 := by
  induction t with
  | nil => rfl
  | cons c t ih =>
      unfold lines pieces breaks at ih ⊢
      rw [List.length_cons] at ih
      by_cases hc : c = '\n'
      · subst hc
        rw [List.count_cons_self, ← ih]
        rfl
      · rw [List.count_cons_of_ne hc, ← ih]
        simp only [cut, if_neg hc, List.length_cons]

/-- The lines of two texts one behind the other: the last line of the first and the first line of the
second become one. -/
theorem lines_append (t t' : Text) :
    ∃ above start, lines (t ++ t') = above ++ (start ++ (cut '\n' t').1) :: (cut '\n' t').2 ∧
      above.length = t.breaks := by
  induction t with
  | nil => exact ⟨[], [], rfl, rfl⟩
  | cons c t ih =>
      obtain ⟨above, start, hlines, hlength⟩ := ih
      unfold lines pieces at hlines ⊢
      unfold breaks at hlength ⊢
      by_cases hc : c = '\n'
      · subst hc
        refine ⟨[] :: above, start, ?_, ?_⟩
        · rw [List.cons_append, List.cons_append, ← hlines]
          rfl
        · rw [List.count_cons_self, List.length_cons, hlength]
      · rw [List.count_cons_of_ne hc]
        simp only [List.cons_append, cut, if_neg hc]
        cases above with
        | nil =>
            obtain ⟨hfirst, hmore⟩ := List.cons.inj hlines
            refine ⟨[], c :: start, ?_, hlength⟩
            rw [hfirst, hmore]
            rfl
        | cons first above =>
            obtain ⟨hfirst, hmore⟩ := List.cons.inj hlines
            refine ⟨(c :: first) :: above, start, ?_, hlength⟩
            rw [hfirst, hmore]
            rfl

/-! ### Numerals -/

theorem isDigit_of_mem_numeral {n : Nat} {c : Char} (h : c ∈ numeral n) : c.isDigit = true :=
  Nat.isDigit_of_mem_toDigits (by decide) (by decide) h

theorem numeral_ne_nil (n : Nat) : numeral n ≠ [] := Nat.toDigits_ne_nil

theorem isEmpty_numeral (n : Nat) : (numeral n).isEmpty = false :=
  List.isEmpty_eq_false_iff.2 (numeral_ne_nil n)

theorem solid_numeral (n : Nat) : (numeral n).Solid :=
  solid_of_isWordChar (numeral_ne_nil n) fun _ hc => isWordChar_of_isDigit (isDigit_of_mem_numeral hc)

theorem numeralValue_numeral (n : Nat) : numeralValue (numeral n) = n := by
  have hvalue : Nat.ofDigitChars 10 (numeral n) 0 = n := Nat.ofDigitChars_ten_toDigits
  rw [Nat.ofDigitChars_eq_foldl] at hvalue
  exact hvalue

theorem word32?_numeral (n : UInt32) : word32? (numeral n.toNat) = some n := by
  have hlt : n.toNat < UInt32.size := n.toNat_lt_size
  simp only [word32?, numeralValue_numeral, isEmpty_numeral, hlt, if_true]
  simp

/-- A numeral ends where no digit follows. -/
theorem spanDigits_numeral_append (n : Nat) (rest : Text)
    (h : ∀ c ∈ rest.head?, c.isDigit = false) :
    spanDigits (numeral n ++ rest) = (numeral n, rest) :=
  spanDigits_eq_iff.2 ⟨rfl, fun _ hc => isDigit_of_mem_numeral hc, h⟩

theorem spanDigits_numeral (n : Nat) : spanDigits (numeral n) = (numeral n, []) := by
  have hspan := spanDigits_numeral_append n [] fun c hc => by cases hc
  rwa [List.append_nil] at hspan

end Text

end GridRobot
