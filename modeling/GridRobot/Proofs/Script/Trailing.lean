import GridRobot.Proofs.Script.Headers
import GridRobot.Proofs.Text.Basic

/-!
# Remarks behind statements

Nothing takes a remark off the end of a line. What the line asks for is found all the same where its reader
is done before it comes to the remark: a call ends with its closing parenthesis, and `else` with the colon
next to it. A condition reaches to the last colon of the line. A colon in the remark moves its end into the
remark, and it makes a header out of a call by the name of a keyword. `Statement.read_remark_iff` says that a
remark does nothing else.
-/

namespace GridRobot

/-! ### Trimming -/

namespace Text

theorem trimStart_append (s t : Text) :
    trimStart (s ++ t) = if s.trimStart = [] then t.trimStart else s.trimStart ++ t := by
  rw [trimStart, List.dropWhile_append]
  simp only [List.isEmpty_iff]
  rfl

theorem trimEnd_append (s t : Text) :
    trimEnd (s ++ t) = if t.trimEnd = [] then s.trimEnd else s ++ t.trimEnd := by
  have hreverse := trimStart_append t.reverse s.reverse
  unfold trimStart at hreverse
  unfold trimEnd
  rw [List.reverse_append, hreverse]
  simp only [List.reverse_eq_nil_iff]
  split
  · rfl
  · rw [List.reverse_append, List.reverse_reverse]

theorem exists_eq_trimEnd_append (t : Text) : ∃ tail, t = t.trimEnd ++ tail ∧ ∀ c ∈ tail, isBlank c = true := by
  refine ⟨(t.reverse.takeWhile isBlank).reverse, ?_, fun c hc => ?_⟩
  · rw [trimEnd, ← List.reverse_append, List.takeWhile_append_dropWhile, List.reverse_reverse]
  · exact List.all_eq_true.1 List.all_takeWhile c (List.mem_reverse.1 hc)

theorem count_trimStart {c : Char} (hc : isBlank c = false) (t : Text) : t.trimStart.count c = t.count c := by
  have hnone : (t.takeWhile isBlank).count c = 0 := by
    apply List.count_eq_zero.2
    intro hmem
    rw [List.all_eq_true.1 List.all_takeWhile c hmem] at hc
    cases hc
  have hsplit : (t.takeWhile isBlank ++ t.trimStart).count c = t.count c := by
    rw [trimStart, List.takeWhile_append_dropWhile]
  rw [← hsplit, List.count_append, hnone, Nat.zero_add]

theorem count_trimEnd {c : Char} (hc : isBlank c = false) (t : Text) : t.trimEnd.count c = t.count c := by
  rw [trimEnd, List.count_reverse]
  exact (count_trimStart hc t.reverse).trans List.count_reverse

/-- Trimming takes blanks away and nothing else. -/
theorem count_trim {c : Char} (hc : isBlank c = false) (t : Text) : t.trim.count c = t.count c := by
  rw [trim, count_trimEnd hc, count_trimStart hc]

/-- A remark comes behind the trimmed line, with blanks between the two. -/
theorem trim_remark {line : Text} (hline : line.trim ≠ []) (comment : Text) :
    ∃ gap rest, (∀ c ∈ gap, isBlank c = true) ∧ gap ≠ [] ∧ (':' ∈ rest ↔ ':' ∈ comment) ∧
      trim (line ++ "  #".toList ++ comment) = line.trim ++ (gap ++ '#' :: rest) := by
  have hstart : line.trimStart ≠ [] := by
    intro hnil
    rw [trim, hnil] at hline
    exact hline rfl
  have hhash : trimEnd ('#' :: comment) = '#' :: comment.trimEnd := by
    have happend := trimEnd_append ['#'] comment
    rw [List.singleton_append] at happend
    rw [happend]
    split
    · next hnil => rw [hnil]; rfl
    · rfl
  obtain ⟨tail, htail, hblank⟩ := exists_eq_trimEnd_append line.trimStart
  change line.trimStart = line.trim ++ tail at htail
  refine ⟨tail ++ [' ', ' '], comment.trimEnd, ?_, by simp, ?_, ?_⟩
  · intro c hc
    rcases List.mem_append.1 hc with hc | hc
    · exact hblank c hc
    · rw [show c = ' ' by simpa using hc]
      rfl
  · rw [← List.count_pos_iff, ← List.count_pos_iff, count_trimEnd (by decide)]
  · have htext : line ++ "  #".toList ++ comment = line ++ ([' ', ' '] ++ '#' :: comment) := by simp
    rw [htext, trim, trimStart_append, if_neg hstart, ← List.append_assoc, trimEnd_append, hhash,
      if_neg (List.cons_ne_nil _ _), htail, List.append_assoc, List.append_assoc, List.append_assoc]

theorem after?_append_start (a b t : Text) : after? (a ++ b) t = (after? a t).bind (after? b) := by
  induction a generalizing t with
  | nil => rfl
  | cons c a ih =>
      cases t with
      | nil => rfl
      | cons d t =>
          rw [List.cons_append, after?, after?, ih]
          split <;> rfl

theorem after?_append_map {start : Text} {c : Char} (hc : c ∉ start) (t rest : Text) :
    after? start (t ++ c :: rest) = (after? start t).map (· ++ c :: rest) := by
  cases h : after? start (t ++ c :: rest) with
  | some behind =>
      obtain ⟨t', rfl, hbehind⟩ := after?_append_cons hc h
      rw [after?_append, Option.map_some, hbehind]
  | none =>
      cases h' : after? start t with
      | none => rfl
      | some t' =>
          rw [eq_append_of_after? h', List.append_assoc, after?_append] at h
          cases h

end Text

/-! ### Conditions -/

namespace Statement

/-- Of two texts the second has the last mark, if there is any in it. -/
theorem beforeLast?_append_or (mark : Char) (s t : Text) :
    beforeLast? mark (s ++ t) = ((beforeLast? mark t).map (s ++ ·)).or (beforeLast? mark s) := by
  induction s with
  | nil => cases h : beforeLast? mark t <;> simp [h, beforeLast?]
  | cons c s ih =>
      rw [List.cons_append, beforeLast?, ih, beforeLast?]
      cases beforeLast? mark t <;> rfl

theorem beforeLast?_eq_none_iff {mark : Char} {t : Text} : beforeLast? mark t = none ↔ mark ∉ t := by
  induction t with
  | nil => simp [beforeLast?]
  | cons c t ih =>
      rw [beforeLast?, List.mem_cons, not_or, ← ih]
      cases beforeLast? mark t with
      | some raw => simp
      | none =>
          by_cases hc : c = mark
          · simp [hc]
          · simp [hc, Ne.symm hc]

theorem count_of_beforeLast? {mark : Char} {t raw : Text} (h : beforeLast? mark t = some raw) :
    raw.count mark + 1 = t.count mark := by
  induction t generalizing raw with
  | nil => cases h
  | cons c t ih =>
      rw [beforeLast?] at h
      cases hlater : beforeLast? mark t with
      | some raw' =>
          rw [hlater] at h
          obtain rfl : c :: raw' = raw := Option.some.inj h
          rw [List.count_cons, List.count_cons, ← ih hlater]
          omega
      | none =>
          rw [hlater] at h
          obtain ⟨rfl, hraw⟩ := Option.ite_none_right_eq_some.1 h
          obtain rfl : [] = raw := Option.some.inj hraw
          rw [List.count_cons_self, List.count_eq_zero.2 (beforeLast?_eq_none_iff.1 hlater)]
          rfl

theorem count_dropCall {c : Char} (hopen : c ≠ '(') (hclose : c ≠ ')') (t : Text) :
    (dropCall t).count c = t.count c := by
  unfold dropCall
  split
  · next rest hreverse =>
      rw [List.count_reverse, ← List.count_reverse (l := t), hreverse, List.count_cons_of_ne hclose.symm,
        List.count_cons_of_ne hopen.symm]
  · rfl

theorem count_condition (raw : Text) : (condition raw).count ':' = raw.count ':' := by
  rw [condition, Text.count_trim (by decide), count_dropCall (by decide) (by decide), Text.count_trim (by decide)]

theorem headerCondition?_append (keyword behind : Text) :
    headerCondition? keyword (keyword ++ behind) = (beforeLast? ':' behind).bind fun raw =>
      if raw.isEmptyLine then none else some (String.ofList (condition raw)) := by
  rw [headerCondition?, Text.after?_append]
  rfl

/-- A condition has all the colons behind the keyword but the last. -/
theorem count_of_headerCondition? {keyword behind : Text} {c : String}
    (h : headerCondition? keyword (keyword ++ behind) = some c) : c.toList.count ':' + 1 = behind.count ':' := by
  rw [headerCondition?_append] at h
  obtain ⟨raw, hraw, hc⟩ := Option.bind_eq_some_iff.1 h
  obtain ⟨-, hc⟩ := Option.ite_none_left_eq_some.1 hc
  obtain rfl : String.ofList (condition raw) = c := Option.some.inj hc
  rw [String.toList_ofList, count_condition, count_of_beforeLast? hraw]

/-- With a colon in the remark there is always a condition. -/
theorem exists_headerCondition?_append_remark (gap : Text) {rest : Text} (hcolon : ':' ∈ rest)
    (keyword behind : Text) :
    ∃ c, headerCondition? keyword (keyword ++ (behind ++ (gap ++ '#' :: rest))) = some c := by
  obtain ⟨raw, hraw⟩ := Option.ne_none_iff_exists'.1 (mt beforeLast?_eq_none_iff.1 (not_not_intro hcolon))
  have hhash : Text.isEmptyLine (behind ++ (gap ++ '#' :: raw)) = false := by
    simp [Text.isEmptyLine, Text.isBlank]
  have hlast : beforeLast? ':' (behind ++ (gap ++ '#' :: rest)) = some (behind ++ (gap ++ '#' :: raw)) := by
    rw [beforeLast?_append_or, beforeLast?_append_or, beforeLast?, hraw]
    rfl
  rw [headerCondition?_append, hlast]
  exact ⟨_, if_neg (Bool.eq_false_iff.1 hhash)⟩

end Statement

/-! ### Behind a trimmed line -/

section Behind

variable {gap : Text} (hgap : ∀ c ∈ gap, Text.isBlank c = true) (hne : gap ≠ []) (rest : Text)

namespace Text

include hgap

theorem trimStart_append_remark (t : Text) :
    trimStart (t ++ (gap ++ '#' :: rest)) =
      if t.trimStart = [] then '#' :: rest else t.trimStart ++ (gap ++ '#' :: rest) := by
  have hskip : trimStart (gap ++ '#' :: rest) = '#' :: rest := by
    rw [trimStart, List.dropWhile_append_of_pos hgap]
    rfl
  rw [trimStart_append, hskip]

theorem head?_trimStart_append_remark {c : Char} (hc : c ≠ '#') (t : Text) :
    (trimStart (t ++ (gap ++ '#' :: rest))).head? = some c ↔ t.trimStart.head? = some c := by
  rw [trimStart_append_remark hgap rest]
  cases t.trimStart with
  | nil => simp [hc.symm]
  | cons d ds => simp

theorem expect?_trimStart_append_remark {c : Char} (hc : c ≠ '#') (t : Text) :
    expect? c (trimStart (t ++ (gap ++ '#' :: rest))) =
      (expect? c t.trimStart).map (· ++ (gap ++ '#' :: rest)) := by
  rw [trimStart_append_remark hgap rest]
  cases t.trimStart with
  | nil => simp [expect?, hc.symm]
  | cons d ds =>
      rw [if_neg (List.cons_ne_nil d ds), List.cons_append, expect?, expect?]
      split <;> rfl

include hne

theorem after?_append_remark (start : Text) (hstart : start.any isBlank = false) (t : Text) :
    after? start (t ++ (gap ++ '#' :: rest)) = (after? start t).map (· ++ (gap ++ '#' :: rest)) := by
  obtain ⟨c, cs, rfl⟩ := List.exists_cons_of_ne_nil hne
  refine after?_append_map (fun hc => ?_) t (cs ++ '#' :: rest)
  rw [List.any_eq_true.2 ⟨c, hc, hgap c List.mem_cons_self⟩] at hstart
  cases hstart

theorem spanWord_append_remark (t : Text) :
    spanWord (t ++ (gap ++ '#' :: rest)) = (t.spanWord.1, t.spanWord.2 ++ (gap ++ '#' :: rest)) := by
  obtain ⟨c, cs, rfl⟩ := List.exists_cons_of_ne_nil hne
  refine spanWord_append_cons (Bool.eq_false_iff.2 fun hword => ?_) t (cs ++ '#' :: rest)
  have hblank := isBlank_eq_false_of_isWordChar hword
  rw [hgap c List.mem_cons_self] at hblank
  cases hblank

end Text

namespace Statement

include hgap hne

theorem isPassedOver_append_remark {t : Text} (ht : t ≠ []) :
    isPassedOver (t ++ (gap ++ '#' :: rest)) = isPassedOver t := by
  obtain ⟨c, cs, rfl⟩ := List.exists_cons_of_ne_nil ht
  have hdouble := Text.after?_append_remark hgap hne rest "\"\"\"".toList (by decide) (c :: cs)
  have hsingle := Text.after?_append_remark hgap hne rest "'''".toList (by decide) (c :: cs)
  unfold isPassedOver
  rw [hdouble, hsingle, Option.isSome_map, Option.isSome_map]
  rfl

theorem isElse_append_remark (t : Text) : isElse (t ++ (gap ++ '#' :: rest)) = isElse t := by
  unfold isElse
  rw [Text.after?_append_remark hgap hne rest _ (by decide)]
  cases Text.after? "else".toList t with
  | none => rfl
  | some behind =>
      show ((behind ++ (gap ++ '#' :: rest)).trimStart.head? == some ':') = (behind.trimStart.head? == some ':')
      rw [Bool.eq_iff_iff, beq_iff_eq, beq_iff_eq, Text.head?_trimStart_append_remark hgap rest (by decide)]

theorem callName?_append_remark (t : Text) : callName? (t ++ (gap ++ '#' :: rest)) = callName? t := by
  unfold callName?
  rw [Text.spanWord_append_remark hgap hne rest]
  dsimp only
  rw [Text.expect?_trimStart_append_remark hgap rest (by decide)]
  cases t.spanWord.1.isEmpty with
  | true => rfl
  | false =>
      cases Text.expect? '(' t.spanWord.2.trimStart with
      | none => rfl
      | some behind =>
          show (Text.expect? ')' (behind ++ (gap ++ '#' :: rest)).trimStart >>= _) =
            (Text.expect? ')' behind.trimStart >>= _)
          rw [Text.expect?_trimStart_append_remark hgap rest (by decide)]
          cases Text.expect? ')' behind.trimStart <;> rfl

/-- A keyword in front of a line is not made by a remark behind the line, unless there is nothing else. -/
theorem after?_keyword_append_remark {word t : Text} (hword : word.any Text.isBlank = false)
    (ht : t ≠ word) :
    Text.after? (word ++ [' ']) (t ++ (gap ++ '#' :: rest)) =
      (Text.after? (word ++ [' ']) t).map (· ++ (gap ++ '#' :: rest)) := by
  rw [Text.after?_append_start, Text.after?_append_start, Text.after?_append_remark hgap hne rest word hword]
  cases h : Text.after? word t with
  | none => rfl
  | some behind =>
      cases behind with
      | nil =>
          have htext := Text.eq_append_of_after? h
          rw [List.append_nil] at htext
          exact absurd htext ht
      | cons d ds =>
          show (if ' ' = d then some (ds ++ (gap ++ '#' :: rest)) else none) =
            Option.map _ (if ' ' = d then some ds else none)
          split <;> rfl

theorem headerCondition?_append_remark {word t : Text} (hword : word.any Text.isBlank = false)
    (ht : t ≠ word) (h : ':' ∉ rest ∨ ¬ word ++ [' '] <+: t) :
    headerCondition? (word ++ [' ']) (t ++ (gap ++ '#' :: rest)) = headerCondition? (word ++ [' ']) t := by
  have hafter := after?_keyword_append_remark hgap hne rest hword ht
  cases hkeyword : Text.after? (word ++ [' ']) t with
  | none =>
      rw [hkeyword] at hafter
      rw [headerCondition?, hafter, headerCondition?, hkeyword]
      rfl
  | some behind =>
      have htext := Text.eq_append_of_after? hkeyword
      have hrest : ':' ∉ rest := by
        rcases h with hrest | hprefix
        · exact hrest
        · exact absurd ⟨behind, htext.symm⟩ hprefix
      have hcolon : ':' ∉ gap ++ '#' :: rest := by
        intro hmem
        rcases List.mem_append.1 hmem with hmem | hmem
        · cases hgap ':' hmem
        · rcases List.mem_cons.1 hmem with hmem | hmem
          · cases hmem
          · exact hrest hmem
      rw [htext, List.append_assoc, headerCondition?_append, headerCondition?_append, beforeLast?_append_or,
        beforeLast?_eq_none_iff.2 hcolon]
      rfl

end Statement

end Behind

/-! ### Lines with a remark -/

namespace Statement

/-- The condition of a statement that has one. -/
def condition? : Statement → Option String
  | .whileLoop c | .ifBranch c | .elifBranch c => some c
  | .skip | .elseBranch | .call _ | .other => none

/-- The keywords that a condition comes behind. -/
def conditionKeywords : List String := ["while ", "if ", "elif "]

/-- A line is read by a few looks at its trimmed text. -/
theorem read_congr {line line' : Text} (hpassed : isPassedOver line'.trim = isPassedOver line.trim)
    (hheaders : ∀ keyword ∈ conditionKeywords,
      headerCondition? keyword.toList line'.trim = headerCondition? keyword.toList line.trim)
    (helse : isElse line'.trim = isElse line.trim) (hcall : callName? line'.trim = callName? line.trim) :
    read line' = read line := by
  have hwhile := hheaders "while " (by decide)
  have hif := hheaders "if " (by decide)
  have helif := hheaders "elif " (by decide)
  simp only [read, hpassed, hwhile, hif, helif, helse, hcall]

theorem condition?_read_eq (line : Text) :
    (read line).condition? = if isPassedOver line.trim then none else
      (headerCondition? "while ".toList line.trim).or ((headerCondition? "if ".toList line.trim).or
        (headerCondition? "elif ".toList line.trim)) := by
  unfold read
  dsimp only
  split
  · rfl
  · cases headerCondition? "while ".toList line.trim with
    | some c => rfl
    | none =>
        cases headerCondition? "if ".toList line.trim with
        | some c => rfl
        | none =>
            cases headerCondition? "elif ".toList line.trim with
            | some c => rfl
            | none =>
                cases isElse line.trim with
                | true => rfl
                | false => cases callName? line.trim <;> rfl

/-- A line that starts with a keyword is read as what this keyword makes of it, if it makes anything. -/
theorem condition?_read {line behind : Text} {keyword : String} (hkeyword : keyword ∈ conditionKeywords)
    (hline : line.trim = keyword.toList ++ behind) :
    (read line).condition? = headerCondition? keyword.toList (keyword.toList ++ behind) := by
  rw [condition?_read_eq, hline]
  simp only [conditionKeywords, List.mem_cons, List.not_mem_nil, or_false] at hkeyword
  rcases hkeyword with rfl | rfl | rfl
  · have hpassed : isPassedOver ("while ".toList ++ behind) = false := rfl
    have hif : headerCondition? "if ".toList ("while ".toList ++ behind) = none := rfl
    have helif : headerCondition? "elif ".toList ("while ".toList ++ behind) = none := rfl
    rw [hpassed, hif, helif]
    exact Option.or_none
  · have hpassed : isPassedOver ("if ".toList ++ behind) = false := rfl
    have hwhile : headerCondition? "while ".toList ("if ".toList ++ behind) = none := rfl
    have helif : headerCondition? "elif ".toList ("if ".toList ++ behind) = none := rfl
    rw [hpassed, hwhile, helif, Option.none_or]
    exact Option.or_none
  · have hpassed : isPassedOver ("elif ".toList ++ behind) = false := rfl
    have hwhile : headerCondition? "while ".toList ("elif ".toList ++ behind) = none := rfl
    have hif : headerCondition? "if ".toList ("elif ".toList ++ behind) = none := rfl
    rw [hpassed, hwhile, hif, Option.none_or, Option.none_or]
    rfl

/-- A keyword is a word and a space, and the word alone asks for nothing. -/
theorem exists_word_of_mem_conditionKeywords {keyword : String} (h : keyword ∈ conditionKeywords) :
    ∃ word : Text, keyword.toList = word ++ [' '] ∧ word.any Text.isBlank = false ∧
      ∀ line : Text, line.trim = word → read line = .other := by
  have hlone (word : Text) (hword : read word = .other) (hself : word.trim = word) (line : Text)
      (hline : line.trim = word) : read line = .other := by
    rw [← hword]
    unfold read
    rw [hline, hself]
  simp only [conditionKeywords, List.mem_cons, List.not_mem_nil, or_false] at h
  rcases h with rfl | rfl | rfl
  · exact ⟨"while".toList, rfl, by decide, hlone _ (by decide) (by decide)⟩
  · exact ⟨"if".toList, rfl, by decide, hlone _ (by decide) (by decide)⟩
  · exact ⟨"elif".toList, rfl, by decide, hlone _ (by decide) (by decide)⟩

/-- A remark behind a line changes what the line asks for only by a colon, and only where the line starts with
a keyword that a condition comes behind. There a colon always does. -/
theorem read_remark_iff (line comment : Text) (hskip : read line ≠ .skip) (hother : read line ≠ .other) :
    read (line ++ "  #".toList ++ comment) = read line ↔
      ':' ∉ comment ∨ ∀ keyword ∈ ["while ", "if ", "elif "], ¬ keyword.toList <+: line.trim := by
  have hpassed : isPassedOver line.trim = false := by
    apply Bool.eq_false_iff.2
    intro hpassed
    exact hskip (if_pos hpassed)
  have hnil : line.trim ≠ [] := by
    intro hnil
    rw [hnil] at hpassed
    cases hpassed
  obtain ⟨gap, rest, hgap, hne, hcolon, htrim⟩ := Text.trim_remark hnil comment
  constructor
  · intro heq
    apply Decidable.byContradiction
    simp only [not_or, Classical.not_forall, Classical.not_not]
    rintro ⟨hcomment, keyword, hkeyword, behind, hline⟩
    have hread := condition?_read hkeyword hline.symm
    have htrimmed : Text.trim (line ++ "  #".toList ++ comment) =
        keyword.toList ++ (behind ++ (gap ++ '#' :: rest)) := by
      rw [htrim, ← hline, List.append_assoc]
    have hremark := condition?_read hkeyword htrimmed
    obtain ⟨c, hc⟩ := exists_headerCondition?_append_remark gap (hcolon.2 hcomment) keyword.toList behind
    rw [heq, hread, hc] at hremark
    have hcount := count_of_headerCondition? hremark
    have hcountRemark := count_of_headerCondition? hc
    have hpos : 0 < rest.count ':' := List.count_pos_iff.2 (hcolon.2 hcomment)
    rw [List.count_append, List.count_append, List.count_cons] at hcountRemark
    omega
  · intro h
    apply read_congr
    · rw [htrim, isPassedOver_append_remark hgap hne rest hnil]
    · intro keyword hkeyword
      obtain ⟨word, hsplit, hword, hlone⟩ := exists_word_of_mem_conditionKeywords hkeyword
      rw [htrim, hsplit]
      apply headerCondition?_append_remark hgap hne rest hword fun ht => hother (hlone line ht)
      rcases h with h | h
      · exact .inl (mt hcolon.1 h)
      · exact .inr (hsplit ▸ h keyword hkeyword)
    · rw [htrim, isElse_append_remark hgap hne rest]
    · rw [htrim, callName?_append_remark hgap hne rest]

theorem read_remark_iff_call :
    let line := "  move () ".toList
    let comment := " go: on".toList
    read line ≠ .skip ∧ read line ≠ .other ∧ read (line ++ "  #".toList ++ comment) = .call "move" := by
  intro line comment
  have hline : read line = .call "move" := by decide
  have hskip : read line ≠ .skip := by decide
  have hother : read line ≠ .other := by decide
  have hkeyword : ∀ keyword ∈ ["while ", "if ", "elif "], ¬ keyword.toList <+: Text.trim line := by decide
  exact ⟨hskip, hother, ((read_remark_iff line comment hskip hother).2 (.inr hkeyword)).trans hline⟩

/-- A colon in a remark becomes part of a condition, and it makes a header of a call. -/
theorem remarks_that_change_statements :
    let comment := " go: on".toList
    '\n' ∉ comment ∧
      read "while front_is_clear():".toList = .whileLoop "front_is_clear" ∧
      read ("while front_is_clear():".toList ++ "  #".toList ++ comment) =
        .whileLoop "front_is_clear():  # go" ∧
      read "if ()".toList = .call "if" ∧
      read ("if ()".toList ++ "  #".toList ++ comment) = .ifBranch "()  # go" := by
  decide

end Statement

end GridRobot
