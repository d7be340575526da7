import GridRobot.Proofs.Script.Discovery

/-!
# Where the lines of a program stand

The code of a program is cut out of a script at the colons of its headers, and the numbers of its lines are
counted from there. This module takes them back to the script: a line of the code that has a number was
read off the line with that number, all of it or what stands behind a header on it (`Text.StandsOn`).
`Code.standsOn_of_body?` is what the rest of the theory uses.
-/

namespace GridRobot

/-! ### Headers -/

namespace Program

/-- A header as it is written, from its `def` to its colon. -/
inductive IsHeader : Text → Prop where
  | mk {gap name gap₁ gap₂ gap₃ : Text} (hgap : ∀ c ∈ gap, Text.isGap c = true) (hne : gap ≠ [])
      (hname : ∀ c ∈ name, Text.isWordChar c = true) (hnonempty : name ≠ [])
      (hgap₁ : ∀ c ∈ gap₁, Text.isGap c = true) (hgap₂ : ∀ c ∈ gap₂, Text.isGap c = true)
      (hgap₃ : ∀ c ∈ gap₃, Text.isGap c = true) :
      IsHeader ("def".toList ++ gap ++ name ++ gap₁ ++ ['('] ++ gap₂ ++ [')'] ++ gap₃ ++ [':'])

theorem HeaderOf.isHeader {name header : Text} (h : HeaderOf name header) : IsHeader header := by
  obtain @⟨gap, _, hgap, hne, hname, hnonempty, ⟨hgap₁, hgap₂, hgap₃⟩⟩ := h
  simpa using IsHeader.mk hgap hne hname hnonempty hgap₁ hgap₂ hgap₃

/-- A header that the search finds stands in the text, with what is found behind it. -/
theorem isHeader_of_mem_headers {t name behind : Text} (h : (name, behind) ∈ headers t) :
    ∃ before header, IsHeader header ∧ t = before ++ header ++ behind := by
  rw [headers_eq_headersAnywhere, mem_headersAnywhere_iff] at h
  obtain ⟨before, header, hheader, ht⟩ := h
  refine ⟨before, header, hheader.isHeader, ?_⟩
  rw [ht, List.append_assoc]

end Program

/-! ### Places -/

/-- A text stands on a line of a script: it is the whole line, or the part of it behind a header. -/
inductive Text.StandsOn (script : Text) : Nat → Text → Prop where
  | whole {i : Nat} {s : Text} (hline : script.lines[i]? = some s) : script.StandsOn (i + 1) s
  | behindHeader {before header behind s : Text} (hscript : script = before ++ header ++ behind)
      (hheader : Program.IsHeader header) (hs : behind.lines.head? = some s) :
      script.StandsOn (before ++ header).lines.length s

theorem Text.StandsOn.exists_line {script s : Text} {number : Nat} (h : script.StandsOn number s) :
    1 ≤ number ∧ number ≤ script.lines.length ∧
      ∃ line, script.lines[number - 1]? = some line ∧ s <:+ line := by
  cases h with
  | @whole i s hline =>
      obtain ⟨hlt, -⟩ := List.getElem?_eq_some_iff.1 hline
      exact ⟨Nat.succ_pos i, hlt, s, hline, List.suffix_refl s⟩
  | @behindHeader before header behind s hscript _ hs =>
      obtain ⟨above, start, hlines, habove⟩ := Text.lines_append (before ++ header) behind
      have hfirst : (Text.cut '\n' behind).1 = s := Option.some.inj hs
      rw [← hscript, hfirst] at hlines
      rw [Text.length_lines, hlines, ← habove]
      refine ⟨Nat.succ_pos _, ?_, start ++ s, ?_, List.suffix_append start s⟩
      · rw [List.length_append, List.length_cons]
        omega
      · rw [Nat.add_sub_cancel, List.getElem?_append_right (Nat.le_refl _), Nat.sub_self]
        rfl

theorem Text.StandsOn.number_lt {script s : Text} {number : Nat} (h : script.StandsOn number s)
    (hfeeds : script.breaks < UInt32.size - 1) : number < UInt32.size := by
  obtain ⟨-, hle, -⟩ := h.exists_line
  rw [Text.length_lines] at hle
  exact Nat.lt_of_le_of_lt hle (Nat.add_lt_of_lt_sub hfeeds)

theorem getElem?_of_takeBlock {α : Type} {margin? : α → Option Nat} {items : List α} {i : Nat} {a : α}
    (h : (takeBlock margin? items)[i]? = some a) : items[i]? = some a := by
  obtain ⟨hlt, -⟩ := List.getElem?_eq_some_iff.1 h
  rw [← takeBlock_append_drop margin? items, List.getElem?_append_left hlt]
  exact h

/-- The lines behind a header stand where they are counted to stand: the first is the rest of the line
on which the header ends. -/
theorem Text.standsOn_behind {script before header behind : Text}
    (hscript : script = before ++ header ++ behind) (hheader : Program.IsHeader header) {i : Nat}
    {s : Text} (hs : behind.lines[i]? = some s) :
    script.StandsOn (script.breaks - behind.breaks + 1 + i) s := by
  have hbreaks : script.breaks - behind.breaks = (before ++ header).breaks := by
    rw [hscript, Text.breaks, List.count_append]
    exact Nat.add_sub_cancel _ _
  rw [hbreaks]
  cases i with
  | zero =>
      have hstands := StandsOn.behindHeader hscript hheader (hs : behind.lines.head? = some s)
      rw [Text.length_lines] at hstands
      exact hstands
  | succ i =>
      obtain ⟨above, start, hlines, habove⟩ := Text.lines_append (before ++ header) behind
      rw [← hscript] at hlines
      rw [← Nat.add_assoc]
      apply StandsOn.whole
      have hindex : above.length + 1 + i - above.length = i + 1 := by omega
      rw [hlines, ← habove, List.getElem?_append_right (by omega), hindex]
      exact hs

namespace Code

/-- What a line of the code says was read off the line of the script that has its number. -/
theorem standsOn_of_body? {script name : String} {body : List Line}
    (hbody : (ofProgram (Program.parse script)).body? name = some body) {l : Line} (hl : l ∈ body) :
    ∃ s, Text.StandsOn script.toList l.number s ∧ l.statement = .read s := by
  rw [body?_ofProgram] at hbody
  obtain ⟨q, hfind, rfl⟩ := Option.map_eq_some_iff.1 hbody
  obtain ⟨hq, -⟩ := List.mem_filter.1 (List.mem_of_getLast? hfind)
  rw [Program.parse, Program.ofText_eq] at hq
  obtain ⟨⟨name', behind⟩, hheaders, rfl⟩ := List.mem_map.1 hq
  obtain ⟨before, header, hheader, hscript⟩ := Program.isHeader_of_mem_headers hheaders
  obtain ⟨i, hi, rfl⟩ := List.mem_mapIdx.1 hl
  exact ⟨_, Text.standsOn_behind hscript hheader (getElem?_of_takeBlock (List.getElem?_eq_getElem hi)), rfl⟩

/-- With fewer than `UInt32.size - 1` line feeds in a script the numbers of the lines of its code are words. -/
theorem number_lt_of_body? {script name : String} (hfeeds : Text.breaks script.toList < UInt32.size - 1)
    {body : List Line} (hbody : (ofProgram (Program.parse script)).body? name = some body) {l : Line}
    (hl : l ∈ body) : l.number < UInt32.size := by
  obtain ⟨s, hstands, -⟩ := standsOn_of_body? hbody hl
  exact hstands.number_lt hfeeds

end Code

end GridRobot
