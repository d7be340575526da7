import GridRobot.Text.Numeral

/-!
# Longest runs

Readers take the longest run of characters of one class off the front of a text. What they take is
described without them by `Text.Span`: the run holds characters of the class only, and what comes next is
none of them. `Text.span_iff` says that there is one such run, the one that is taken.
-/

namespace GridRobot

namespace Text

/-- A text starts with a run of characters of a class that cannot be made longer. -/
structure Span (p : Char → Bool) (t run rest : Text) : Prop where
  text : t = run ++ rest
  inside : ∀ c ∈ run, p c = true
  ends : ∀ c ∈ rest.head?, p c = false

theorem span_iff {p : Char → Bool} {t run rest : Text} :
    Span p t run rest ↔ t.takeWhile p = run ∧ t.dropWhile p = rest := by
  constructor
  · rintro ⟨rfl, hinside, hends⟩
    rw [List.takeWhile_append_of_pos hinside, List.dropWhile_append_of_pos hinside]
    cases rest with
    | nil => simp
    | cons c rest =>
        have hc : ¬ p c = true := by simp [hends c rfl]
        rw [List.takeWhile_cons_of_neg hc, List.dropWhile_cons_of_neg hc, List.append_nil]
        exact ⟨rfl, rfl⟩
  · rintro ⟨rfl, rfl⟩
    refine ⟨List.takeWhile_append_dropWhile.symm, List.all_eq_true.1 List.all_takeWhile, ?_⟩
    intro c hc
    have hnot := List.head?_dropWhile_not p t
    rw [Option.mem_def.1 hc] at hnot
    exact hnot

theorem spanWord_eq_iff {t word rest : Text} : t.spanWord = (word, rest) ↔ Span isWordChar t word rest := by
  rw [span_iff, spanWord, Prod.mk.injEq]

/-- A word ends at a character that no name has, whatever comes behind it. -/
theorem spanWord_append_cons {c : Char} (hc : isWordChar c = false) (t rest : Text) :
    (t ++ c :: rest).spanWord = (t.spanWord.1, t.spanWord.2 ++ c :: rest) := by
  have hspan : Span isWordChar t t.spanWord.1 t.spanWord.2 := spanWord_eq_iff.1 rfl
  refine spanWord_eq_iff.2 ⟨?_, hspan.inside, ?_⟩
  · rw [← List.append_assoc, ← hspan.text]
  · intro d hd
    cases hrest : t.spanWord.2 with
    | nil =>
        rw [hrest] at hd
        obtain rfl : c = d := Option.some.inj hd
        exact hc
    | cons e es =>
        rw [hrest] at hd
        exact hspan.ends d (by rw [hrest]; exact hd)

theorem spanDigits_eq_iff {t digits rest : Text} :
    t.spanDigits = (digits, rest) ↔ Span Char.isDigit t digits rest := by
  rw [span_iff, spanDigits, Prod.mk.injEq]

theorem skipGap_eq_iff {t rest : Text} : t.skipGap = rest ↔ ∃ gap, Span isGap t gap rest := by
  constructor
  · intro h
    exact ⟨t.takeWhile isGap, span_iff.2 ⟨rfl, h⟩⟩
  · rintro ⟨gap, hspan⟩
    exact (span_iff.1 hspan).2

theorem expect?_eq_some_iff {c : Char} {t rest : Text} : expect? c t = some rest ↔ t = c :: rest := by
  cases t with
  | nil => simp [expect?]
  | cons d t =>
      rw [expect?, List.cons.injEq]
      by_cases hd : d = c <;> simp [hd]

end Text

end GridRobot
