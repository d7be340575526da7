import GridRobot.Proofs.Script.Header
import GridRobot.Proofs.Script.Headers
import GridRobot.Proofs.Text.LineIndex

/-!
# Which procedures are found

The search for headers does not try every place of a text: it goes on behind a header that it has found, and
behind the letters `def` where no header starts. It misses nothing, since no header starts inside another
one. Inside a header the letters `def` can only stand in the name, and what follows them there is either
more of the name or a gap with a parenthesis behind it. So the search comes to the same as trying every
place (`Program.headers_eq_headersAnywhere`), and the procedure of a name is that of its last header.

A procedure is cut out at the offset where its header ends, and the number of its first line is looked up by that
offset. Both come to what can be told by the text behind the header (`Program.ofText_eq`), which is how the rest of
the theory reads programs.
-/

namespace GridRobot

namespace Program

/-- The header at the front of a text, with what stands behind it. -/
def headerHere? (t : Text) : Option (Text × Text) := (Text.after? "def".toList t).bind header?

/-- The headers that start at any place of a text, from left to right. -/
def headersAnywhere : Text → List (Text × Text)
  | [] => []
  | c :: cs => (headerHere? (c :: cs)).toList ++ headersAnywhere cs

theorem headerHere?_eq_some_iff {t name behind : Text} :
    headerHere? t = some (name, behind) ↔ ∃ header, HeaderOf name header ∧ t = header ++ behind := by
  rw [headerHere?, Option.bind_eq_some_iff]
  constructor
  · rintro ⟨rest, hdef, hheader⟩
    rw [Text.eq_append_of_after? hdef]
    exact header?_eq_some_iff.1 hheader
  · rintro ⟨header, hheader, rfl⟩
    obtain ⟨rest, hrest⟩ : ∃ rest, header = "def".toList ++ rest := by
      cases hheader
      exact ⟨_, by rw [List.append_assoc, List.append_assoc]⟩
    refine ⟨rest ++ behind, ?_, header?_eq_some_iff.2 ⟨header, hheader, ?_⟩⟩
    · rw [hrest, List.append_assoc, Text.after?_append]
    · rw [hrest, List.append_assoc]

/-! ### No header inside a header -/

theorem headersAnywhere_cons_of_eq_none {c : Char} {cs : Text} (h : headerHere? (c :: cs) = none) :
    headersAnywhere (c :: cs) = headersAnywhere cs := by
  rw [headersAnywhere, h]
  rfl

theorem headersAnywhere_append_of_not_mem {t : Text} (h : 'd' ∉ t) (rest : Text) :
    headersAnywhere (t ++ rest) = headersAnywhere rest := by
  induction t with
  | nil => rfl
  | cons c t ih =>
      rw [List.mem_cons, not_or] at h
      have hnone : headerHere? (c :: (t ++ rest)) = none := by
        simp [headerHere?, Text.after?, h.1]
      rw [List.cons_append, headersAnywhere_cons_of_eq_none hnone, ih h.2]

theorem header?_eq_none_of_parenthesis {name gap : Text} (hname : ∀ c ∈ name, Text.isWordChar c = true)
    (hgap : ∀ c ∈ gap, Text.isGap c = true) (rest : Text) :
    header? (name ++ (gap ++ '(' :: rest)) = none := by
  cases name with
  | cons c name =>
      exact header?_eq_none_of_head (Text.isGap_eq_false_of_isWordChar (hname c List.mem_cons_self))
  | nil =>
      have hskip : Text.skipGap (gap ++ '(' :: rest) = '(' :: rest := by
        refine Text.skipGap_eq_iff.2 ⟨gap, rfl, hgap, ?_⟩
        intro c hc
        cases hc
        rfl
      rw [List.nil_append, header?, hskip]
      exact if_neg (by simp [Text.spanWord, Text.isWordChar])

theorem headersAnywhere_name {name gap : Text} (hname : ∀ c ∈ name, Text.isWordChar c = true)
    (hgap : ∀ c ∈ gap, Text.isGap c = true) (rest : Text) :
    headersAnywhere (name ++ (gap ++ '(' :: rest)) = headersAnywhere (gap ++ '(' :: rest) := by
  induction name with
  | nil => rfl
  | cons c name ih =>
      have hnone : headerHere? (c :: (name ++ (gap ++ '(' :: rest))) = none := by
        rw [headerHere?, Option.bind_eq_none_iff]
        intro behind hbehind
        have hsplit : c :: (name ++ (gap ++ '(' :: rest)) = (c :: name ++ gap) ++ '(' :: rest := by simp
        rw [hsplit] at hbehind
        obtain ⟨inside, hinside, rfl⟩ := Text.after?_append_cons (by decide) hbehind
        have hdrop : inside = (c :: name).drop 3 ++ gap.drop (3 - (c :: name).length) := by
          rw [← List.drop_append, hinside]
          rfl
        rw [hdrop, List.append_assoc]
        exact header?_eq_none_of_parenthesis (fun d hd => hname d (List.mem_of_mem_drop hd))
          (fun d hd => hgap d (List.mem_of_mem_drop hd)) rest
      rw [List.cons_append, headersAnywhere_cons_of_eq_none hnone]
      exact ih fun d hd => hname d (List.mem_cons_of_mem c hd)

theorem not_mem_of_isGap {gap : Text} (hgap : ∀ c ∈ gap, Text.isGap c = true) : 'd' ∉ gap := fun hd =>
  absurd (hgap 'd' hd) (by decide)

/-- No header starts inside another one. -/
theorem headersAnywhere_header {name header : Text} (h : HeaderOf name header) (behind : Text) :
    headersAnywhere (header ++ behind) = (name, behind) :: headersAnywhere behind := by
  have hhere := headerHere?_eq_some_iff.2 ⟨header, h, Eq.refl (header ++ behind)⟩
  obtain @⟨gap, _, hgap, -, hname, -, @⟨gap₁, gap₂, gap₃, hgap₁, hgap₂, hgap₃⟩⟩ := h
  have htext : "def".toList ++ gap ++ name ++ (gap₁ ++ '(' :: (gap₂ ++ ')' :: (gap₃ ++ [':']))) ++ behind =
      'd' :: (('e' :: 'f' :: gap) ++ (name ++ (gap₁ ++ '(' :: (gap₂ ++ ')' :: (gap₃ ++ [':']) ++ behind)))) := by
    simp
  have hstart : 'd' ∉ 'e' :: 'f' :: gap := by simpa using not_mem_of_isGap hgap
  have hend : 'd' ∉ gap₁ ++ '(' :: (gap₂ ++ ')' :: (gap₃ ++ [':'])) := by
    simpa using ⟨not_mem_of_isGap hgap₁, not_mem_of_isGap hgap₂, not_mem_of_isGap hgap₃⟩
  have hrest := headersAnywhere_append_of_not_mem hend behind
  rw [List.append_assoc, List.cons_append] at hrest
  rw [htext] at hhere ⊢
  rw [headersAnywhere, hhere, headersAnywhere_append_of_not_mem hstart, headersAnywhere_name hname hgap₁, hrest]
  rfl

/-- The search finds what is found by trying every place. -/
theorem headers_eq_headersAnywhere (t : Text) : headers t = headersAnywhere t := by
  fun_induction headers t with
  | case1 => rfl
  | case2 c cs hdef ih =>
      have hnone : headerHere? (c :: cs) = none := by
        rw [headerHere?]
        exact hdef ▸ rfl
      rw [headersAnywhere_cons_of_eq_none hnone, ih]
  | case3 c cs rest hdef hnone ih =>
      have hhere : headerHere? (c :: cs) = none := by
        rw [headerHere?]
        exact hdef ▸ hnone
      have hcs : cs = ['e', 'f'] ++ rest := (List.cons.inj (Text.eq_append_of_after? hdef)).2
      rw [headersAnywhere_cons_of_eq_none hhere, hcs, headersAnywhere_append_of_not_mem (by decide), ih]
  | case4 c cs rest hdef name behind hsome ih =>
      obtain ⟨header, hheader, ht⟩ := header?_eq_some_iff.1 hsome
      rw [Text.eq_append_of_after? hdef]
      exact (congrArg _ ih).trans (ht ▸ headersAnywhere_header hheader behind).symm

/-! ### Places -/

/-- A header of a procedure stands in a text, from one byte offset to another. -/
inductive HeaderAt (t name : Text) : Nat → Nat → Prop where
  | mk {before header behind : Text} (ht : t = before ++ (header ++ behind)) (hheader : HeaderOf name header) :
      HeaderAt t name before.byteLength (before ++ header).byteLength

theorem mem_headersAnywhere_iff {t name behind : Text} :
    (name, behind) ∈ headersAnywhere t ↔
      ∃ before header, HeaderOf name header ∧ t = before ++ (header ++ behind) := by
  induction t with
  | nil =>
      simp only [headersAnywhere, List.not_mem_nil, false_iff]
      rintro ⟨before, header, hheader, ht⟩
      cases hheader
      simp at ht
  | cons c t ih =>
      rw [headersAnywhere, List.mem_append, Option.mem_toList, headerHere?_eq_some_iff, ih]
      constructor
      · rintro (⟨header, hheader, ht⟩ | ⟨before, header, hheader, rfl⟩)
        · exact ⟨[], header, hheader, ht⟩
        · exact ⟨c :: before, header, hheader, rfl⟩
      · rintro ⟨before, header, hheader, ht⟩
        cases before with
        | nil => exact .inl ⟨header, hheader, ht⟩
        | cons d before => exact .inr ⟨before, header, hheader, (List.cons.inj ht).2⟩

/-- The procedure of a header of `whole`, by what stands behind the header. -/
def procedureBehind (whole name behind : Text) : Procedure :=
  ⟨String.ofList name, ⟨whole.breaks - behind.breaks + 1, Text.block behind.lines⟩⟩

theorem procedureAt_append (before behind name : Text) :
    procedureAt (before ++ behind) (LineIndex.ofText (before ++ behind)) name before.byteLength =
      procedureBehind (before ++ behind) name behind := by
  rw [procedureAt, Text.lineNumber_byteLength, Text.blockFrom, Text.fromOffset?_byteLength, procedureBehind,
    Text.breaks_append, Nat.add_sub_cancel]
  rfl

/-- The procedures of a text are told by what stands behind its headers. -/
theorem ofText_eq (t : Text) :
    ofText t = ⟨(headers t).map fun (name, behind) => procedureBehind t name behind⟩ := by
  refine congrArg Program.mk (List.map_congr_left ?_)
  rintro ⟨name, behind⟩ hmem
  rw [headers_eq_headersAnywhere, mem_headersAnywhere_iff] at hmem
  obtain ⟨before, header, -, rfl⟩ := hmem
  dsimp only
  rw [← List.append_assoc, Text.byteLength_append_sub, procedureAt_append]

/-- With fewer than `UInt32.size - 1` line feeds the first line of a procedure has the word that is looked up by the
offset of the header's end. -/
theorem firstLine_eq_lineOfOffset {t : Text} (h : t.breaks < UInt32.size - 1) {q : Procedure}
    (hq : q ∈ (ofText t).procedures) :
    ∃ start stop, HeaderAt t q.name.toList start stop ∧ q.body.firstLine = (t.lineOfOffset stop).toNat := by
  obtain ⟨⟨name, behind⟩, hmem, rfl⟩ := List.mem_map.1 hq
  rw [headers_eq_headersAnywhere, mem_headersAnywhere_iff] at hmem
  obtain ⟨before, header, hheader, rfl⟩ := hmem
  dsimp only [procedureAt]
  refine ⟨before.byteLength, (before ++ header).byteLength, ?_, ?_⟩
  · rw [String.toList_ofList]
    exact .mk rfl hheader
  · rw [Text.toNat_lineOfOffset h, ← List.append_assoc, Text.byteLength_append_sub]

end Program

end GridRobot
