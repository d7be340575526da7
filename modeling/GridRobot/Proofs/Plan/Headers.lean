import GridRobot.Proofs.Plan.Phrase
import GridRobot.Proofs.Script.Discovery

/-!
# Finding the procedures of a plan

Headers are searched for anywhere in a text, so a name such as `xdef` or `def` could be taken for the
start of one. It never is. Inside a line of a plan the letters `def` can only come from a word, a word is
followed by a parenthesis, and between `def` and the name of a procedure there has to be a gap.
-/

namespace GridRobot

namespace Program

/-- No header starts inside a run of name characters with a parenthesis behind it. -/
theorem headers_append_parenthesis {t : Text} (ht : ∀ c ∈ t, Text.isWordChar c = true) (rest : Text) :
    headers (t ++ '(' :: rest) = headers rest := by
  have hname := @headersAnywhere_name t [] ht (by simp) rest
  have hopen := @headersAnywhere_append_of_not_mem ['('] (by decide) rest
  rw [headers_eq_headersAnywhere, headers_eq_headersAnywhere, ← hopen]
  exact hname

/-! ### The lines of a plan -/

theorem headers_phrase (ph : Phrase) (rest : Text) : headers (ph.text ++ rest) = headers rest := by
  have hheader (keyword : Text) (hkeyword : 'd' ∉ keyword) (w : Word) :
      headers (keyword ++ w.text ++ "():".toList ++ rest) = headers rest := by
    rw [List.append_assoc, List.append_assoc, headers_append_of_not_mem hkeyword]
    exact (headers_append_parenthesis w.wordChars _).trans
      (headers_append_of_not_mem (t := [')', ':']) (by decide) rest)
  cases ph with
  | call name =>
      change headers (name.text ++ ['(', ')'] ++ rest) = _
      rw [List.append_assoc]
      exact (headers_append_parenthesis name.wordChars _).trans
        (headers_append_of_not_mem (t := [')']) (by decide) rest)
  | loop condition => exact hheader "while ".toList (by decide) condition
  | branch condition => exact hheader "if ".toList (by decide) condition
  | elseIf condition => exact hheader "elif ".toList (by decide) condition
  | otherwise => exact headers_append_of_not_mem (t := "else:".toList) (by decide) rest

theorem headers_row (r : Row) (rest : Text) : headers (r.text ++ rest) = headers rest := by
  have hindent : 'd' ∉ List.replicate (4 * r.depth) ' ' := by
    intro h
    cases List.eq_of_mem_replicate h
  rw [Row.text, List.append_assoc, headers_append_of_not_mem hindent, headers_phrase]

theorem header?_word (w : Word) (rest : Text) :
    header? (' ' :: (w.text ++ '(' :: ')' :: ':' :: rest)) = some (w.text, rest) := by
  have hskip : Text.skipGap (' ' :: (w.text ++ '(' :: ')' :: ':' :: rest)) =
      w.text ++ '(' :: ')' :: ':' :: rest := by
    obtain ⟨c, cs, hc⟩ := List.exists_cons_of_ne_nil w.nonempty
    have hgap := Text.isGap_eq_false_of_isWordChar (w.wordChars c (hc ▸ List.mem_cons_self))
    rw [hc, Text.skipGap, List.dropWhile_cons_of_pos (by decide), List.cons_append,
      List.dropWhile_cons_of_neg (by simp [hgap])]
  have hne : w.text.isEmpty = false := by simpa using w.nonempty
  have hparameters : afterParameters? ('(' :: ')' :: ':' :: rest) = some rest := rfl
  rw [header?, hskip, w.spanWord_append (by decide)]
  simp [hne, hparameters, Text.isGap]

theorem headers_header (r : Routine) (rest : Text) :
    headers (r.header ++ rest) = (r.name.text, rest) :: headers rest := by
  have htext : r.header ++ rest =
      ['d', 'e', 'f'] ++ ' ' :: (r.name.text ++ '(' :: ')' :: ':' :: rest) := by
    change ['d', 'e', 'f', ' '] ++ r.name.text ++ ['(', ')', ':'] ++ rest = _
    simp
  rw [htext, headers_def, header?_word]

end Program

end GridRobot
