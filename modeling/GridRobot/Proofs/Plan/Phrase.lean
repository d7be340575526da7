import GridRobot.Proofs.Plan.Basic
import GridRobot.Proofs.Text.Basic

/-!
# Reading the lines of a plan

Every line that a plan is written as reads back as what it was written for, at the margin it was given.
No word can get in the way: it holds neither a blank, which each keyword of a header ends with, nor a
colon, without which nothing reads as `else`.
-/

namespace GridRobot

namespace Text

theorem after?_eq_none_of_not_mem {start t : Text} {c : Char} (hstart : c ∈ start) (ht : c ∉ t) :
    after? start t = none := by
  cases h : after? start t with
  | none => rfl
  | some rest =>
      rw [eq_append_of_after? h] at ht
      exact absurd (List.mem_append_left rest hstart) ht

theorem margin?_replicate_append (n : Nat) {t : Text} (hne : t ≠ [])
    (hhead : ∀ c ∈ t.head?, isBlank c = false) : margin? (List.replicate n ' ' ++ t) = some n := by
  obtain ⟨c, cs, rfl⟩ := List.exists_cons_of_ne_nil hne
  have hc : isBlank c = false := hhead c rfl
  have hindent : indentation (List.replicate n ' ' ++ c :: cs) = n := by
    induction n with
    | zero => simp [indentation, hc]
    | succ n ih =>
        simp only [indentation] at ih
        simp [indentation, List.replicate_succ, isBlank, ih]
  have hempty : isEmptyLine (List.replicate n ' ' ++ c :: cs) = false := by
    simp [isEmptyLine, hc]
  rw [margin?, hempty, hindent]
  rfl

end Text

namespace Word

theorem not_mem_text (w : Word) {c : Char} (hc : Text.isWordChar c = false) : c ∉ w.text := by
  intro hmem
  rw [w.wordChars c hmem] at hc
  cases hc

theorem head_text (w : Word) (rest : Text) :
    ∀ c ∈ (w.text ++ rest).head?, Text.isWordChar c = true := by
  intro c hc
  obtain ⟨d, ds, hd⟩ := List.exists_cons_of_ne_nil w.nonempty
  rw [hd] at hc
  cases hc
  exact w.wordChars _ (hd ▸ List.mem_cons_self)

theorem spanWord_append (w : Word) {c : Char} (hc : Text.isWordChar c = false) (rest : Text) :
    Text.spanWord (w.text ++ c :: rest) = (w.text, c :: rest) := by
  rw [Text.spanWord, List.takeWhile_append_of_pos w.wordChars, List.dropWhile_append_of_pos w.wordChars,
    List.takeWhile_cons_of_neg (by simp [hc]), List.dropWhile_cons_of_neg (by simp [hc]),
    List.append_nil]

end Word

namespace Statement

theorem headerCondition?_of_not_mem {keyword line : Text} {c : Char} (hkeyword : c ∈ keyword)
    (hline : c ∉ line) : headerCondition? keyword line = none := by
  rw [headerCondition?, Text.after?_eq_none_of_not_mem hkeyword hline]
  rfl

theorem beforeLast?_append (mark : Char) (t : Text) : beforeLast? mark (t ++ [mark]) = some t := by
  induction t with
  | nil => simp [beforeLast?]
  | cons c cs ih => simp [beforeLast?, ih]

theorem condition_word (w : Word) : condition (w.text ++ "()".toList) = w.text := by
  have hword : w.text.Solid := Text.solid_of_isWordChar w.nonempty w.wordChars
  have hclose : Text.Solid [')'] := Text.solid_singleton (by decide)
  have htrim : Text.trim w.text = w.text := hword.trim_replicate_append 0
  have hcall : Text.trim (w.text ++ "()".toList) = w.text ++ "()".toList := by
    have hsolid := hword.append_append hclose ['(']
    rw [List.append_assoc] at hsolid
    exact hsolid.trim_replicate_append 0
  have hdrop : dropCall (w.text ++ "()".toList) = w.text := by simp [dropCall]
  rw [condition, hcall, hdrop, htrim]

/-- A header is read by its own keyword. -/
theorem headerCondition?_header (keyword : Text) (w : Word) :
    headerCondition? keyword (keyword ++ w.text ++ "():".toList) = some w.name := by
  have hbefore : beforeLast? ':' (w.text ++ "():".toList) = some (w.text ++ "()".toList) := by
    have h := beforeLast?_append ':' (w.text ++ "()".toList)
    rwa [List.append_assoc] at h
  have hempty : Text.isEmptyLine (w.text ++ "()".toList) = false := by
    simp [Text.isEmptyLine, Text.isBlank]
  rw [headerCondition?, List.append_assoc, Text.after?_append]
  simp only [Option.bind_eq_bind, Option.bind_some, hbefore, hempty, condition_word]
  rfl

theorem isElse_of_not_mem {line : Text} (h : ':' ∉ line) : isElse line = false := by
  unfold isElse
  split
  · next rest hrest =>
      have hmem : ':' ∉ rest.trimStart := by
        intro hmem
        have hsub : ':' ∈ rest := (List.dropWhile_suffix _).subset hmem
        rw [Text.eq_append_of_after? hrest] at h
        exact h (List.mem_append_right _ hsub)
      cases hhead : rest.trimStart.head? with
      | none => rfl
      | some c =>
          have hc : c ≠ ':' := fun e => hmem (e ▸ List.mem_of_mem_head? hhead)
          simpa using hc
  · rfl

theorem read_ne_skip {t : Text} (h : isPassedOver t.trim = false) : read t ≠ .skip := by
  simp only [read, h, Bool.false_eq_true, if_false]
  repeat' split
  all_goals nofun

theorem callName?_call (w : Word) : callName? (w.text ++ "()".toList) = some w.name := by
  have hspan := w.spanWord_append (c := '(') (by decide) [')']
  change Text.spanWord (w.text ++ "()".toList) = _ at hspan
  have hne : w.text.isEmpty = false := by simpa using w.nonempty
  simp only [callName?, hspan, hne]
  rfl

end Statement

namespace Phrase

/-- What a line of a plan's script asks for. -/
def statement : Phrase → Statement
  | .call name => .call name.name
  | .loop condition => .whileLoop condition.name
  | .branch condition => .ifBranch condition.name
  | .elseIf condition => .elifBranch condition.name
  | .otherwise => .elseBranch

theorem head_text (ph : Phrase) : ∀ c ∈ ph.text.head?, Text.isWordChar c = true := by
  cases ph with
  | call name => exact name.head_text _
  | _ =>
      intro c hc
      cases hc
      decide

theorem text_ne_nil (ph : Phrase) : ph.text ≠ [] := by
  cases ph with
  | call name => exact List.append_ne_nil_of_left_ne_nil name.nonempty _
  | _ => exact List.cons_ne_nil _ _

theorem head_append (ph : Phrase) (rest : Text) :
    ∀ c ∈ (ph.text ++ rest).head?, Text.isWordChar c = true := by
  obtain ⟨c, cs, htext⟩ := List.exists_cons_of_ne_nil ph.text_ne_nil
  have hhead := ph.head_text
  rw [htext] at hhead ⊢
  exact hhead

theorem getLast_text (ph : Phrase) : ∀ c ∈ ph.text.getLast?, Text.isBlank c = false := by
  have hlast : ∃ start, ph.text = start ++ [')'] ∨ ph.text = start ++ [':'] := by
    cases ph with
    | call name => exact ⟨name.text ++ ['('], .inl (List.append_assoc name.text ['('] [')']).symm⟩
    | otherwise => exact ⟨"else".toList, .inr rfl⟩
    | _ => exact ⟨_ ++ "()".toList, .inr (List.append_assoc _ "()".toList [':']).symm⟩
  obtain ⟨start, h | h⟩ := hlast
  · intro c hc
    rw [h, List.getLast?_concat] at hc
    cases hc
    decide
  · intro c hc
    rw [h, List.getLast?_concat] at hc
    cases hc
    decide

theorem not_passedOver {t : Text} (hne : t ≠ []) (hhead : ∀ c ∈ t.head?, Text.isWordChar c = true) :
    Statement.isPassedOver t = false := by
  obtain ⟨c, cs, rfl⟩ := List.exists_cons_of_ne_nil hne
  have hc : Text.isWordChar c = true := hhead c rfl
  have hhash : c ≠ '#' := by rintro rfl; cases hc
  have hdouble : c ≠ '"' := by rintro rfl; cases hc
  have hsingle : c ≠ '\x27' := by rintro rfl; cases hc
  simp [Statement.isPassedOver, Text.after?, hhash, hdouble.symm, hsingle.symm]

theorem trim_text (ph : Phrase) (depth : Nat) :
    Text.trim (List.replicate depth ' ' ++ ph.text) = ph.text :=
  Text.trim_replicate_append depth
    (fun c hc => Text.isBlank_eq_false_of_isWordChar (ph.head_text c hc)) ph.getLast_text

/-- A phrase reads back as what it was written for, at any depth. -/
theorem read_text (ph : Phrase) (depth : Nat) :
    Statement.read (List.replicate depth ' ' ++ ph.text) = ph.statement := by
  have hpassed : Statement.isPassedOver ph.text = false := not_passedOver ph.text_ne_nil ph.head_text
  rw [Statement.read, ph.trim_text]
  rw [hpassed]
  cases ph with
  | call name =>
      have hblank : ' ' ∉ name.text ++ "()".toList := by simp [name.not_mem_text (c := ' ') (by decide)]
      have hcolon : ':' ∉ name.text ++ "()".toList := by simp [name.not_mem_text (c := ':') (by decide)]
      have hno (keyword : Text) (h : ' ' ∈ keyword) :
          Statement.headerCondition? keyword (call name).text = none :=
        Statement.headerCondition?_of_not_mem h hblank
      have helse : Statement.isElse (call name).text = false := Statement.isElse_of_not_mem hcolon
      have hcall : Statement.callName? (call name).text = some name.name := Statement.callName?_call name
      rw [hno "while ".toList (by decide), hno "if ".toList (by decide), hno "elif ".toList (by decide),
        helse, hcall]
      rfl
  | loop condition =>
      have hwhile : Statement.headerCondition? "while ".toList (loop condition).text = some condition.name :=
        Statement.headerCondition?_header "while ".toList condition
      rw [hwhile]
      rfl
  | branch condition =>
      have hwhile : Statement.headerCondition? "while ".toList (branch condition).text = none := rfl
      have hif : Statement.headerCondition? "if ".toList (branch condition).text = some condition.name :=
        Statement.headerCondition?_header "if ".toList condition
      rw [hwhile, hif]
      rfl
  | elseIf condition =>
      have hwhile : Statement.headerCondition? "while ".toList (elseIf condition).text = none := rfl
      have hif : Statement.headerCondition? "if ".toList (elseIf condition).text = none := rfl
      have helif : Statement.headerCondition? "elif ".toList (elseIf condition).text = some condition.name :=
        Statement.headerCondition?_header "elif ".toList condition
      rw [hwhile, hif, helif]
      rfl
  | otherwise => rfl

example : Statement.read "    else()".toList = .call "else" := by decide

end Phrase

namespace Row

/-- The line that a row is read as. -/
def line (number : Nat) (r : Row) : Line := ⟨number, some (4 * r.depth), r.phrase.statement⟩

theorem margin?_text (r : Row) : Text.margin? r.text = some (4 * r.depth) :=
  Text.margin?_replicate_append _ r.phrase.text_ne_nil
    fun c hc => Text.isBlank_eq_false_of_isWordChar (r.phrase.head_text c hc)

theorem read_text (number : Nat) (r : Row) : Line.read number r.text = r.line number := by
  rw [Line.read, margin?_text, Row.text, r.phrase.read_text]
  rfl

end Row

end GridRobot
