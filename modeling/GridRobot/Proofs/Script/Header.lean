import GridRobot.Proofs.Text.Basic
import GridRobot.Script.Program

/-!
# Headers as they are written

The header of a procedure is written as `def`, a gap, a name, and then a pair of parentheses and a colon that
may have gaps in front of them. This module takes the reader of headers back to that form:
`Program.header?_eq_some_iff` says that it reads exactly the headers that are written so.
-/

namespace GridRobot

namespace Program

/-- The parameters of a procedure, which has none, from behind its name to the colon. -/
inductive IsParameters : Text → Prop where
  | mk {gap₁ gap₂ gap₃ : Text} (hgap₁ : ∀ c ∈ gap₁, Text.isGap c = true)
      (hgap₂ : ∀ c ∈ gap₂, Text.isGap c = true) (hgap₃ : ∀ c ∈ gap₃, Text.isGap c = true) :
      IsParameters (gap₁ ++ '(' :: (gap₂ ++ ')' :: (gap₃ ++ [':'])))

/-- The header of a procedure, from its `def` to its colon. No name character stands on either side of the
name, so it is as long as it can be. -/
inductive HeaderOf (name : Text) : Text → Prop where
  | mk {gap parameters : Text} (hgap : ∀ c ∈ gap, Text.isGap c = true) (hne : gap ≠ [])
      (hname : ∀ c ∈ name, Text.isWordChar c = true) (hnonempty : name ≠ [])
      (hparameters : IsParameters parameters) :
      HeaderOf name ("def".toList ++ gap ++ name ++ parameters)

theorem expect?_skipGap_eq_some_iff {c : Char} (hc : Text.isGap c = false) {t rest : Text} :
    Text.expect? c t.skipGap = some rest ↔
      ∃ gap, (∀ d ∈ gap, Text.isGap d = true) ∧ t = gap ++ c :: rest := by
  rw [Text.expect?_eq_some_iff, Text.skipGap_eq_iff]
  constructor
  · rintro ⟨gap, hspan⟩
    exact ⟨gap, hspan.inside, hspan.text⟩
  · rintro ⟨gap, hgap, ht⟩
    refine ⟨gap, ht, hgap, ?_⟩
    intro d hd
    cases hd
    exact hc

theorem afterParameters?_eq_some_iff {t rest : Text} :
    afterParameters? t = some rest ↔ ∃ parameters, IsParameters parameters ∧ t = parameters ++ rest := by
  have hopen := @expect?_skipGap_eq_some_iff '(' rfl
  have hclose := @expect?_skipGap_eq_some_iff ')' rfl
  have hcolon := @expect?_skipGap_eq_some_iff ':' rfl
  simp only [afterParameters?, Option.bind_eq_bind, Option.bind_eq_some_iff, hopen, hclose, hcolon]
  constructor
  · rintro ⟨t₁, ⟨gap₁, hgap₁, rfl⟩, t₂, ⟨gap₂, hgap₂, rfl⟩, gap₃, hgap₃, rfl⟩
    exact ⟨_, .mk hgap₁ hgap₂ hgap₃, by simp⟩
  · rintro ⟨parameters, @⟨gap₁, gap₂, gap₃, hgap₁, hgap₂, hgap₃⟩, rfl⟩
    refine ⟨_, ⟨gap₁, hgap₁, ?_⟩, _, ⟨gap₂, hgap₂, rfl⟩, gap₃, hgap₃, rfl⟩
    simp

theorem IsParameters.isWordChar_head {parameters : Text} (h : IsParameters parameters) (rest : Text) :
    ∀ c ∈ (parameters ++ rest).head?, Text.isWordChar c = false := by
  obtain @⟨gap₁, gap₂, gap₃, hgap₁, -, -⟩ := h
  intro c hc
  cases gap₁ with
  | nil =>
      cases hc
      rfl
  | cons d gap₁ =>
      cases hc
      apply Bool.eq_false_iff.2
      intro hword
      have hnot := Text.isGap_eq_false_of_isWordChar hword
      rw [hgap₁ c List.mem_cons_self] at hnot
      cases hnot

/-- A header is read behind its `def` exactly if one is written there. -/
theorem header?_eq_some_iff {t name behind : Text} :
    header? t = some (name, behind) ↔ ∃ header, HeaderOf name header ∧ "def".toList ++ t = header ++ behind := by
  constructor
  · intro h
    simp only [header?, Option.ite_none_right_eq_some, Option.map_eq_some_iff, Prod.mk.injEq,
      Bool.and_eq_true] at h
    obtain ⟨⟨hhead, hword⟩, rest, hrest, hname, rfl⟩ := h
    obtain ⟨parameters, hparameters, hbehind⟩ := afterParameters?_eq_some_iff.1 hrest
    obtain ⟨gap, hgap⟩ := Text.skipGap_eq_iff.1 (Eq.refl t.skipGap)
    have hspan : Text.Span Text.isWordChar t.skipGap name (parameters ++ rest) :=
      Text.spanWord_eq_iff.1 (Prod.ext hname hbehind)
    have hnonempty : name ≠ [] := by
      rintro rfl
      rw [hname] at hword
      cases hword
    have hne : gap ≠ [] := by
      rintro rfl
      obtain ⟨c, hc, hgapc⟩ := (Option.any_eq_true _ _).1 hhead
      rw [hgap.text, List.nil_append] at hc
      rw [hgap.ends c hc] at hgapc
      cases hgapc
    refine ⟨_, .mk hgap.inside hne hspan.inside hnonempty hparameters, ?_⟩
    rw [hgap.text, hspan.text]
    simp
  · rintro ⟨header, @⟨gap, parameters, hgap, hne, hname, hnonempty, hparameters⟩, ht⟩
    have htext : t = gap ++ (name ++ (parameters ++ behind)) := by simpa using ht
    have hskip : t.skipGap = name ++ (parameters ++ behind) := by
      refine Text.skipGap_eq_iff.2 ⟨gap, htext, hgap, ?_⟩
      obtain ⟨c, cs, rfl⟩ := List.exists_cons_of_ne_nil hnonempty
      intro d hd
      cases hd
      exact Text.isGap_eq_false_of_isWordChar (hname c List.mem_cons_self)
    have hword : t.skipGap.spanWord = (name, parameters ++ behind) :=
      Text.spanWord_eq_iff.2 ⟨hskip, hname, hparameters.isWordChar_head behind⟩
    have hhead : t.head?.any Text.isGap = true := by
      obtain ⟨c, cs, rfl⟩ := List.exists_cons_of_ne_nil hne
      rw [htext]
      exact hgap c List.mem_cons_self
    have hempty : name.isEmpty = false := List.isEmpty_eq_false_iff.2 hnonempty
    have hafter : afterParameters? (parameters ++ behind) = some behind :=
      afterParameters?_eq_some_iff.2 ⟨parameters, hparameters, rfl⟩
    simp only [header?, hword, hhead, hempty, hafter]
    rfl

end Program

end GridRobot
