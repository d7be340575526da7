import GridRobot.Proofs.Text.Span
import GridRobot.Script.Program

/-!
# Searching for headers, one place at a time

What the search for headers comes to at a place where the letters `def` do not stand, and at one where they
do. A text without a `d` has no header to offer.

A header may run over several lines, so the headers of a text are not those of its lines. They are where the
text is cut at a line feed that no header can run across: behind it stands nothing that could go on with a
header that has started (`Program.Seam`). Then the headers of both parts are the headers of the whole
(`Program.headers_append`).
-/

namespace GridRobot

theorem Text.after?_append_cons {start t rest behind : Text} {c : Char} (hc : c ∉ start)
    (h : Text.after? start (t ++ c :: rest) = some behind) :
    ∃ t', t = start ++ t' ∧ behind = t' ++ c :: rest := by
  induction start generalizing t with
  | nil =>
      cases h
      exact ⟨t, rfl, rfl⟩
  | cons d start ih =>
      rw [List.mem_cons, not_or] at hc
      cases t with
      | nil => simp [Text.after?, Ne.symm hc.1] at h
      | cons e t =>
          simp only [List.cons_append, Text.after?] at h
          split at h
          · next heq =>
              obtain ⟨t', rfl, hbehind⟩ := ih hc.2 h
              exact ⟨t', by rw [heq, List.cons_append], hbehind⟩
          · cases h

namespace Program

theorem headers_cons_of_after?_eq_none {c : Char} {cs : Text}
    (h : Text.after? ['d', 'e', 'f'] (c :: cs) = none) : headers (c :: cs) = headers cs := by
  rw [headers]
  split
  · rfl
  · next heq => simp [h] at heq

theorem headers_def (rest : Text) :
    headers (['d', 'e', 'f'] ++ rest) =
      match header? rest with
      | none => headers rest
      | some (name, behind) => (name, behind) :: headers behind := by
  have hdef := Text.after?_append ['d', 'e', 'f'] rest
  rw [List.cons_append] at hdef ⊢
  rw [headers]
  split
  · next heq =>
      rw [hdef] at heq
      cases heq
  · next rest' heq =>
      rw [hdef] at heq
      cases heq
      split
      · next hnone => rw [hnone]
      · next name behind hsome => rw [hsome]

theorem header?_eq_none_of_head {c : Char} {cs : Text} (hc : Text.isGap c = false) :
    header? (c :: cs) = none := by
  simp [header?, hc]

theorem headers_append_of_not_mem {t : Text} (h : 'd' ∉ t) (rest : Text) :
    headers (t ++ rest) = headers rest := by
  induction t with
  | nil => rfl
  | cons c t ih =>
      rw [List.mem_cons, not_or] at h
      rw [List.cons_append, headers_cons_of_after?_eq_none (by simp [Text.after?, h.1]), ih h.2]

/-! ### Seams -/

/-- Lines below others into which no header runs on: they start with nothing that could carry one on. -/
structure Seam (below : Text) : Prop where
  next : ∀ c ∈ below.skipGap.head?, c ≠ '(' ∧ c ≠ ')' ∧ c ≠ ':'
  noHeader : header? ('\n' :: below) = none

theorem header?_cons_of_isGap {c : Char} (hc : Text.isGap c = true) (cs : Text) :
    header? (c :: cs) = if (Text.skipGap (c :: cs)).spanWord.1 = [] then none
      else (afterParameters? (Text.skipGap (c :: cs)).spanWord.2).map ((Text.skipGap (c :: cs)).spanWord.1, ·) := by
  have hhead : (c :: cs).head?.any Text.isGap = true := hc
  unfold header?
  by_cases hword : (Text.skipGap (c :: cs)).spanWord.1 = []
  · simp only [hhead, hword, Bool.true_and, List.isEmpty_nil, Bool.not_true, Bool.false_eq_true, if_false, if_true]
  · have hne : (Text.skipGap (c :: cs)).spanWord.1.isEmpty = false := List.isEmpty_eq_false_iff.2 hword
    simp only [hhead, hne, Bool.true_and, Bool.not_false, if_true, if_neg hword]

theorem skipGap_append (t : Text) (below : Text) :
    (t ++ '\n' :: below).skipGap =
      if t.skipGap = [] then below.skipGap else t.skipGap ++ '\n' :: below := by
  rw [Text.skipGap, List.dropWhile_append, List.dropWhile_cons_of_pos rfl, Text.skipGap]
  simp only [List.isEmpty_iff]
  rfl

theorem expect?_skipGap_append {c : Char} {below : Text} (hc : ∀ d ∈ below.skipGap.head?, d ≠ c) (t : Text) :
    Text.expect? c (t ++ '\n' :: below).skipGap =
      (Text.expect? c t.skipGap).map (· ++ '\n' :: below) := by
  rw [skipGap_append]
  cases hskip : t.skipGap with
  | nil =>
      rw [if_pos rfl]
      cases hbelow : below.skipGap with
      | nil => rfl
      | cons d rest =>
          have hd : d ≠ c := hc d (by rw [hbelow]; rfl)
          exact if_neg hd
  | cons d rest =>
      rw [if_neg (List.cons_ne_nil d rest), List.cons_append, Text.expect?, Text.expect?]
      split <;> rfl

variable {below : Text} (hseam : Seam below)

include hseam

theorem afterParameters?_append (t : Text) :
    afterParameters? (t ++ '\n' :: below) = (afterParameters? t).map (· ++ '\n' :: below) := by
  have hopen := fun t => expect?_skipGap_append (fun d hd => (hseam.next d hd).1) t
  have hclose := fun t => expect?_skipGap_append (fun d hd => (hseam.next d hd).2.1) t
  have hcolon := fun t => expect?_skipGap_append (fun d hd => (hseam.next d hd).2.2) t
  unfold afterParameters?
  rw [hopen]
  cases Text.expect? '(' t.skipGap with
  | none => rfl
  | some t₁ =>
      show Text.expect? ')' (t₁ ++ '\n' :: below).skipGap >>= _ =
        (Text.expect? ')' t₁.skipGap >>= _).map _
      rw [hclose]
      cases Text.expect? ')' t₁.skipGap with
      | none => rfl
      | some t₂ => exact hcolon t₂

theorem header?_append (t : Text) :
    header? (t ++ '\n' :: below) = (header? t).map fun (name, behind) => (name, behind ++ '\n' :: below) := by
  cases t with
  | nil => exact hseam.noHeader
  | cons c cs =>
      cases hgap : Text.isGap c with
      | false =>
          rw [header?_eq_none_of_head hgap, List.cons_append, header?_eq_none_of_head hgap]
          rfl
      | true =>
          have hnone := hseam.noHeader
          rw [header?_cons_of_isGap rfl] at hnone
          rw [header?_cons_of_isGap hgap, List.cons_append, header?_cons_of_isGap hgap, ← List.cons_append,
            skipGap_append]
          cases hskip : Text.skipGap (c :: cs) with
          | nil =>
              rw [if_pos rfl]
              exact hnone
          | cons d ds =>
              rw [if_neg (List.cons_ne_nil d ds), Text.spanWord_append_cons (by decide), afterParameters?_append hseam]
              split
              · rfl
              · rw [Option.map_map, Option.map_map]
                rfl

/-- The headers of a text with lines below it are those of the text and those of the lines below. -/
theorem headers_append (t : Text) :
    headers (t ++ '\n' :: below) =
      (headers t).map (fun (name, behind) => (name, behind ++ '\n' :: below)) ++ headers below := by
  fun_induction headers t with
  | case1 => exact headers_append_of_not_mem (t := ['\n']) (by decide) below
  | case2 c cs hdef ih =>
      have hnone : Text.after? ['d', 'e', 'f'] (c :: (cs ++ '\n' :: below)) = none := by
        rw [Option.eq_none_iff_forall_ne_some]
        intro behind hsome
        obtain ⟨t', ht', -⟩ := Text.after?_append_cons (t := c :: cs) (by decide) hsome
        rw [ht', Text.after?_append] at hdef
        cases hdef
      rw [List.cons_append, headers_cons_of_after?_eq_none hnone, ih]
  | case3 c cs rest hdef hnone ih =>
      rw [Text.eq_append_of_after? hdef, List.append_assoc, headers_def, header?_append hseam, hnone]
      exact ih
  | case4 c cs rest hdef name behind hsome ih =>
      rw [Text.eq_append_of_after? hdef, List.append_assoc, headers_def, header?_append hseam, hsome]
      exact congrArg _ ih

end Program

end GridRobot
