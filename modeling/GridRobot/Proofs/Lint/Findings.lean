import Mathlib.Data.List.TakeWhile
import GridRobot.Proofs.Lint.EntryPoint
import GridRobot.Proofs.Script.LineEnds

/-!
# All that a check finds

What a check has to report can be said without searching. A name is mentioned in a line if it stands there
somewhere as a word of its own that is not called (`Lint.Mentioned`), and a line opens a block if it has one
of a few forms (`Lint.OpensBlock`). The search for a name passes over occurrences that overlap the one before,
and nothing is lost by that: such an occurrence has a character of a name in front of it, so it is no word of
its own (`Lint.mentions_iff`). `lintScript_eq` puts the findings of all lines together.
-/

namespace GridRobot

namespace Lint

/-! ### Mentions -/

/-- What stands between two texts is a word of its own there and is not called: no character of a name is next
to it, and the first character behind it that is not blank is no opening parenthesis. -/
structure Bare (before after : Text) : Prop where
  starts : ∀ c ∈ before.getLast?, Text.isWordChar c = false
  ends : ∀ c ∈ after.head?, Text.isWordChar c = false
  uncalled : after.find? (!Text.isBlank ·) ≠ some '('

theorem isBare_iff {before after : Text} : isBare before.getLast? after = true ↔ Bare before after := by
  have hany (c : Option Char) : c.any Text.isWordChar = false ↔ ∀ d ∈ c, Text.isWordChar d = false := by
    cases c <;> simp
  rw [isBare, Text.trimStart, ← List.find?_not_eq_head?_dropWhile, Bool.and_eq_true, Bool.and_eq_true,
    Bool.not_eq_true', Bool.not_eq_true', hany, hany, bne_iff_ne]
  constructor
  · rintro ⟨⟨hstarts, hends⟩, huncalled⟩
    exact ⟨hstarts, hends, huncalled⟩
  · exact fun h => ⟨⟨h.starts, h.ends⟩, h.uncalled⟩

/-- A name is mentioned in a line, wherever it stands in it, without being called there. -/
def Mentioned (name line : Text) : Prop :=
  ∃ before after, line = before ++ (name ++ after) ∧ Bare before after

/-- A name is mentioned in a text that other text has been passed before. -/
def MentionedBehind (name passed t : Text) : Prop :=
  ∃ before after, t = before ++ (name ++ after) ∧ Bare (passed ++ before) after

theorem mentionedBehind_cons {name passed : Text} {c : Char} {cs : Text} :
    MentionedBehind name passed (c :: cs) ↔
      (∃ after, c :: cs = name ++ after ∧ Bare passed after) ∨ MentionedBehind name (passed ++ [c]) cs := by
  constructor
  · rintro ⟨before, after, ht, hbare⟩
    cases before with
    | nil =>
        rw [List.append_nil] at hbare
        exact .inl ⟨after, ht, hbare⟩
    | cons d before =>
        obtain ⟨rfl, rfl⟩ := List.cons.inj ht
        rw [List.append_cons] at hbare
        exact .inr ⟨before, after, rfl, hbare⟩
  · rintro (⟨after, ht, hbare⟩ | ⟨before, after, rfl, hbare⟩)
    · rw [← List.append_nil passed] at hbare
      exact ⟨[], after, ht, hbare⟩
    · rw [← List.append_cons] at hbare
      exact ⟨c :: before, after, rfl, hbare⟩

theorem not_mentionedBehind_nil {name : Text} (hne : name ≠ []) (passed : Text) :
    ¬ MentionedBehind name passed [] := by
  rintro ⟨before, after, ht, -⟩
  exact hne (List.append_eq_nil_iff.1 (List.append_eq_nil_iff.1 ht.symm).2).1

/-- What starts behind a character of a name is no word of its own. -/
theorem mentionedBehind_cons_of_isWordChar {name passed : Text} {c : Char} {cs : Text}
    (hpassed : ∃ d ∈ passed.getLast?, Text.isWordChar d = true) :
    MentionedBehind name passed (c :: cs) ↔ MentionedBehind name (passed ++ [c]) cs := by
  rw [mentionedBehind_cons, or_iff_right]
  rintro ⟨after, -, hbare⟩
  obtain ⟨d, hd, hword⟩ := hpassed
  rw [hbare.starts d hd] at hword
  cases hword

theorem mentionedBehind_cons_of_after?_eq_none {name passed : Text} {c : Char} {cs : Text}
    (h : Text.after? name (c :: cs) = none) :
    MentionedBehind name passed (c :: cs) ↔ MentionedBehind name (passed ++ [c]) cs := by
  rw [mentionedBehind_cons, or_iff_right]
  rintro ⟨after, ht, -⟩
  rw [ht, Text.after?_append] at h
  cases h

theorem mentionedBehind_cons_of_after?_eq_some {name passed after : Text} {c : Char} {cs : Text}
    (h : Text.after? name (c :: cs) = some after) :
    MentionedBehind name passed (c :: cs) ↔ Bare passed after ∨ MentionedBehind name (passed ++ [c]) cs := by
  have hhere : (∃ after', c :: cs = name ++ after' ∧ Bare passed after') ↔ Bare passed after := by
    rw [Text.eq_append_of_after? h]
    constructor
    · rintro ⟨after', heq, hbare⟩
      rwa [List.append_cancel_left heq]
    · exact fun hbare => ⟨after, rfl, hbare⟩
  rw [mentionedBehind_cons, hhere]

section Search

variable {name : Text} (hne : name ≠ []) (hword : ∀ c ∈ name, Text.isWordChar c = true)

include hne hword

/-- The search finds what is mentioned. Inside an occurrence it has only characters of names to pass, and has
passed one. -/
theorem mentions_iff_behind (t : Text) (inside : Nat) (passed : Text)
    (hinside : ∀ c ∈ t.take inside, Text.isWordChar c = true)
    (hpassed : 0 < inside → ∃ c ∈ passed.getLast?, Text.isWordChar c = true) :
    mentions name inside passed.getLast? t = true ↔ MentionedBehind name passed t := by
  induction t generalizing inside passed with
  | nil =>
      rw [mentions]
      simp [not_mentionedBehind_nil hne]
  | cons c cs ih =>
      have hlast : (passed ++ [c]).getLast? = some c := List.getLast?_concat
      cases inside with
      | succ inside =>
          obtain ⟨hc, hcs⟩ := List.forall_mem_cons.1 hinside
          have hnext := ih inside (passed ++ [c]) hcs fun _ => ⟨c, hlast, hc⟩
          rw [hlast] at hnext
          rw [mentions, hnext, mentionedBehind_cons_of_isWordChar (hpassed (Nat.succ_pos inside))]
      | zero =>
          rw [mentions]
          cases hafter : Text.after? name (c :: cs) with
          | none =>
              have hnext := ih 0 (passed ++ [c]) (by simp) fun h => absurd h (Nat.lt_irrefl 0)
              rw [hlast] at hnext
              rw [mentionedBehind_cons_of_after?_eq_none hafter]
              exact hnext
          | some after =>
              have hcs : c ∈ name ∧ cs.take (name.length - 1) = name.tail := by
                have ht := Text.eq_append_of_after? hafter
                obtain ⟨d, ds, rfl⟩ := List.exists_cons_of_ne_nil hne
                obtain ⟨rfl, rfl⟩ := List.cons.inj (ht.trans List.cons_append)
                exact ⟨List.mem_cons_self, List.take_left⟩
              have hnext := ih (name.length - 1) (passed ++ [c])
                (by rw [hcs.2]; exact fun d hd => hword d (List.mem_of_mem_tail hd))
                fun _ => ⟨c, hlast, hword c hcs.1⟩
              rw [hlast] at hnext
              rw [mentionedBehind_cons_of_after?_eq_some hafter, ← isBare_iff, ← hnext, ← Bool.or_eq_true]

/-- Occurrences that the search passes over are no mentions. -/
theorem mentions_iff (line : Text) : mentions name 0 none line = true ↔ Mentioned name line :=
  mentions_iff_behind hne hword line 0 [] (by simp) fun h => absurd h (Nat.lt_irrefl 0)

end Search

/-- Of two occurrences that overlap the search takes the first, and neither is a word of its own. -/
example : mentions "turn_left".toList 0 none "turn_lefturn_left".toList = false := by decide

theorem mentioned_iff_exists_lt {name line : Text} :
    Mentioned name line ↔ ∃ i < line.length + 1, line = line.take i ++ (name ++ line.drop (i + name.length)) ∧
      Bare (line.take i) (line.drop (i + name.length)) := by
  constructor
  · rintro ⟨before, after, rfl, hbare⟩
    have htake : (before ++ (name ++ after)).take before.length = before := List.take_left
    have hdrop : (before ++ (name ++ after)).drop (before.length + name.length) = after := by
      rw [← List.append_assoc, ← List.length_append, List.drop_left]
    refine ⟨before.length, ?_, ?_⟩
    · rw [List.length_append]
      omega
    · rw [htake, hdrop]
      exact ⟨rfl, hbare⟩
  · rintro ⟨i, -, hline, hbare⟩
    exact ⟨_, _, hline, hbare⟩

instance (before after : Text) : Decidable (Bare before after) := decidable_of_iff _ isBare_iff

instance (name line : Text) : Decidable (Mentioned name line) := decidable_of_iff' _ mentioned_iff_exists_lt

theorem word_of_mem_vocabulary {name : String} (h : name ∈ vocabulary) :
    name.toList ≠ [] ∧ ∀ c ∈ name.toList, Text.isWordChar c = true := by
  have hall : ∀ name ∈ vocabulary, name.toList ≠ [] ∧ name.toList.all Text.isWordChar = true := by decide
  exact ⟨(hall name h).1, List.all_eq_true.1 (hall name h).2⟩

theorem bareNames_eq (line : Text) :
    bareNames line = vocabulary.filter fun name =>
      line.trim.head? ≠ some '#' ∧ Mentioned name.toList line.trim := by
  unfold bareNames
  dsimp only
  split
  · next hremark => simp [hremark]
  · next hline =>
      apply List.filter_congr
      intro name hname
      obtain ⟨hne, hword⟩ := word_of_mem_vocabulary hname
      rw [Bool.eq_iff_iff, mentions_iff hne hword, decide_eq_true_eq, and_iff_right hline]

/-! ### Headers -/

/-- A line opens a block if one of the words stands in front with a blank behind it and a colon later on, or
if nothing but blanks comes between `else` and a colon. -/
def OpensBlock (line : Text) : Prop :=
  (∃ word ∈ headerWords, ∃ c rest, line = word.toList ++ c :: rest ∧ Text.isBlank c = true ∧ ':' ∈ rest) ∨
    ∃ gap rest, line = "else".toList ++ (gap ++ ':' :: rest) ∧ ∀ c ∈ gap, Text.isBlank c = true

theorem head?_trimStart_eq_some_iff {t : Text} {c : Char} (hc : Text.isBlank c = false) :
    t.trimStart.head? = some c ↔ ∃ gap rest, t = gap ++ c :: rest ∧ ∀ d ∈ gap, Text.isBlank d = true := by
  constructor
  · intro h
    obtain ⟨rest, hrest⟩ := List.head?_eq_some_iff.1 h
    refine ⟨t.takeWhile Text.isBlank, rest, ?_, List.all_eq_true.1 List.all_takeWhile⟩
    rw [← hrest, Text.trimStart, List.takeWhile_append_dropWhile]
  · rintro ⟨gap, rest, rfl, hgap⟩
    rw [Text.trimStart, List.dropWhile_append_of_pos hgap, List.dropWhile_cons_of_neg (by simp [hc])]
    rfl

theorem head?_any_isBlank_and_contains_iff {t : Text} :
    (t.head?.any Text.isBlank && t.contains ':') = true ↔
      ∃ c rest, t = c :: rest ∧ Text.isBlank c = true ∧ ':' ∈ rest := by
  rw [Bool.and_eq_true, List.contains_iff_mem]
  constructor
  · rintro ⟨hblank, hcolon⟩
    cases t with
    | nil => cases hblank
    | cons c rest =>
        rcases List.mem_cons.1 hcolon with rfl | hcolon
        · cases hblank
        · exact ⟨c, rest, rfl, hblank, hcolon⟩
  · rintro ⟨c, rest, rfl, hblank, hcolon⟩
    exact ⟨hblank, List.mem_cons_of_mem c hcolon⟩

theorem opensWith_iff {line : Text} {word : String} :
    opensWith line word = true ↔
      (∃ c rest, line = word.toList ++ c :: rest ∧ Text.isBlank c = true ∧ ':' ∈ rest) ∨
        word = "else" ∧ ∃ gap rest, line = word.toList ++ (gap ++ ':' :: rest) ∧
          ∀ c ∈ gap, Text.isBlank c = true := by
  unfold opensWith
  cases h : Text.after? word.toList line with
  | none =>
      have hnone (rest : Text) : line ≠ word.toList ++ rest := by
        rintro rfl
        rw [Text.after?_append] at h
        cases h
      simp [hnone]
  | some behind =>
      rw [Text.eq_append_of_after? h]
      simp only [List.append_cancel_left_eq]
      rw [Bool.or_eq_true, head?_any_isBlank_and_contains_iff, Bool.and_eq_true, beq_iff_eq, beq_iff_eq,
        head?_trimStart_eq_some_iff (by decide)]

theorem isHeader_iff {line : Text} : isHeader line = true ↔ OpensBlock line := by
  unfold isHeader OpensBlock
  rw [List.any_eq_true]
  simp only [opensWith_iff, and_or_left, exists_or]
  refine or_congr Iff.rfl ⟨?_, ?_⟩
  · rintro ⟨word, -, rfl, hline⟩
    exact hline
  · exact fun hline => ⟨"else", by decide, rfl, hline⟩

instance (line : Text) : Decidable (OpensBlock line) := decidable_of_iff _ isHeader_iff

/-! ### What is to be reported -/

/-- The names that are mentioned in lines without being called, with the numbers of the lines: line by line,
and on a line in the order of the vocabulary. -/
def bareMentions (lines : List (Nat × Text)) : List (Nat × String) :=
  lines.flatMap fun (number, line) =>
    (vocabulary.filter fun name => line.trim.head? ≠ some '#' ∧ Mentioned name.toList line.trim).map (number, ·)

/-- The numbers of the lines that have something on them and are not indented, though the line above opens a
block. -/
def unindented (lines : List (Nat × Text)) : List Nat :=
  (lines.zip lines.tail).filterMap fun ((_, above), (number, line)) =>
    if OpensBlock above.trim ∧ line.isEmptyLine = false ∧ line.head? ≠ some ' ' ∧ line.head? ≠ some '\t' then
      some number
    else none

def missingEntryPoint : Diagnostic := ⟨.missingMain, "main() is not defined", some 1, some "def main():"⟩

/-- The finding about a script with so many opening and so many closing parentheses. -/
def unbalanced (opened closed : Nat) : Diagnostic :=
  ⟨.unbalancedParentheses,
    if closed < opened then showNat (opened - closed) ++ " unclosed parenthesis(es)"
    else showNat (closed - opened) ++ " unmatched closing parenthesis(es)", none, none⟩

def missingIndent (number : Nat) : Diagnostic :=
  ⟨.expectedIndent, "expected an indented block", some number, none⟩

/-- The errors in a script, in their order. -/
def errorsOf (t : Text) : List Diagnostic :=
  (if t.isEmptyLine = false ∧ entryPoint ∉ (Program.ofText t).procedures.map (·.name) then [missingEntryPoint]
    else []) ++
  (if t.count '(' ≠ t.count ')' then [unbalanced (t.count '(') (t.count ')')] else []) ++
  (unindented t.numberedLines).map missingIndent

/-! ### What is reported -/

open Diagnostics

theorem ofSeverity_append (severity : Severity) (ds ds' : List Diagnostic) :
    ofSeverity severity (ds ++ ds') = ofSeverity severity ds ++ ofSeverity severity ds' := List.filter_append ..

theorem ofSeverity_eq {severity severity' : Severity} {ds : List Diagnostic}
    (h : ∀ d ∈ ds, d.severity = severity') :
    ofSeverity severity ds = if severity' = severity then ds else [] := by
  unfold ofSeverity
  split
  · next heq => exact List.filter_eq_self.2 fun d hd => decide_eq_true ((h d hd).trans heq)
  · next hne =>
      refine List.filter_eq_nil_iff.2 fun d hd => ?_
      rw [h d hd, decide_eq_true_eq]
      exact hne

theorem lacksIndent_iff {line next : Text} :
    lacksIndent line next = true ↔ OpensBlock line.trim ∧ next.isEmptyLine = false ∧ next.head? ≠ some ' ' ∧
      next.head? ≠ some '\t' := by
  simp only [lacksIndent, Bool.and_eq_true, isHeader_iff, Bool.not_eq_true', bne_iff_ne, and_assoc]

theorem map_missingIndent_unindented_cons (number : Nat) (line : Text) (rest : List (Nat × Text)) :
    (unindented ((number, line) :: rest)).map missingIndent =
      indentFindings line rest.head? ++ (unindented rest).map missingIndent := by
  cases rest with
  | nil => rfl
  | cons next rest =>
      unfold unindented
      rw [List.tail_cons, List.zip_cons_cons, List.filterMap_cons, List.head?_cons, indentFindings]
      dsimp only
      by_cases hlacks : lacksIndent line next.2 = true
      · rw [if_pos (lacksIndent_iff.1 hlacks), if_pos hlacks]
        rfl
      · rw [if_neg (mt lacksIndent_iff.2 hlacks), if_neg hlacks]
        rfl

theorem bareMentions_cons (number : Nat) (line : Text) (rest : List (Nat × Text)) :
    bareMentions ((number, line) :: rest) = (bareNames line).map (number, ·) ++ bareMentions rest := by
  rw [bareNames_eq]
  rfl

theorem ofSeverity_bareNameFindings (severity : Severity) (number : Nat) (names : List String) :
    ofSeverity severity (names.map (bareNameFinding number)) =
      if .warning = severity then names.map (bareNameFinding number) else [] := by
  apply ofSeverity_eq
  intro d hd
  obtain ⟨name, -, rfl⟩ := List.mem_map.1 hd
  rfl

theorem ofSeverity_indentFindings (severity : Severity) (line : Text) (next : Option (Nat × Text)) :
    ofSeverity severity (indentFindings line next) =
      if .error = severity then indentFindings line next else [] := by
  apply ofSeverity_eq
  intro d hd
  rw [Diagnostic.severity, code_of_mem_indentFindings hd]
  rfl

theorem warnings_lineFindings (lines : List (Nat × Text)) :
    ofSeverity .warning (lineFindings lines) =
      (bareMentions lines).map fun mention => bareNameFinding mention.1 mention.2 := by
  induction lines with
  | nil => rfl
  | cons line rest ih =>
      rw [lineFindings, ofSeverity_append, ofSeverity_append, ofSeverity_bareNameFindings,
        ofSeverity_indentFindings, ih, bareMentions_cons, List.map_append, List.map_map]
      exact congrArg (· ++ _) (List.append_nil _)

theorem errors_lineFindings (lines : List (Nat × Text)) :
    ofSeverity .error (lineFindings lines) = (unindented lines).map missingIndent := by
  induction lines with
  | nil => rfl
  | cons line rest ih =>
      rw [lineFindings, ofSeverity_append, ofSeverity_append, ofSeverity_bareNameFindings,
        ofSeverity_indentFindings, ih, map_missingIndent_unindented_cons]
      rfl

theorem entryPointFindings_eq (t : Text) :
    entryPointFindings t =
      if t.isEmptyLine = false ∧ entryPoint ∉ (Program.ofText t).procedures.map (·.name) then
        [missingEntryPoint]
      else [] := by
  refine (ite_not ..).symm.trans (if_congr ?_ rfl rfl)
  rw [Bool.not_eq_true, Bool.or_eq_false_iff, ← Program.defines_iff, Bool.not_eq_true]

theorem parenthesisFindings_eq (t : Text) :
    parenthesisFindings t =
      if t.count '(' ≠ t.count ')' then [unbalanced (t.count '(') (t.count ')')] else [] := by
  unfold parenthesisFindings unbalanced
  dsimp only
  rw [ite_not]
  split
  · rfl
  · split <;> rfl

theorem errors_findings (t : Text) : ofSeverity .error (findings t) = errorsOf t := by
  rw [findings, ofSeverity_append, ofSeverity_append, errors_lineFindings, entryPointFindings_eq,
    parenthesisFindings_eq, errorsOf]
  congr 2
  · split <;> rfl
  · split <;> rfl

theorem warnings_findings (t : Text) :
    ofSeverity .warning (findings t) =
      (bareMentions t.numberedLines).map fun mention => bareNameFinding mention.1 mention.2 := by
  rw [findings, ofSeverity_append, ofSeverity_append, warnings_lineFindings, entryPointFindings_eq,
    parenthesisFindings_eq]
  split <;> split <;> rfl

/-! ### Numbers of lines -/

theorem fst_mem_of_mem_bareMentions {lines : List (Nat × Text)} {mention : Nat × String}
    (h : mention ∈ bareMentions lines) : mention.1 ∈ lines.map Prod.fst := by
  obtain ⟨line, hline, hmention⟩ := List.mem_flatMap.1 h
  obtain ⟨name, -, rfl⟩ := List.mem_map.1 hmention
  exact List.mem_map_of_mem hline

theorem mem_of_mem_unindented {lines : List (Nat × Text)} {number : Nat} (h : number ∈ unindented lines) :
    number ∈ lines.map Prod.fst := by
  obtain ⟨⟨above, line⟩, hpair, hnumber⟩ := List.mem_filterMap.1 h
  obtain ⟨-, heq⟩ := Option.ite_none_right_eq_some.1 hnumber
  obtain rfl : line.1 = number := Option.some.inj heq
  exact List.mem_map_of_mem (List.mem_of_mem_tail (List.of_mem_zip hpair).2)

theorem line_mem_of_mem_errorsOf {t : Text} {d : Diagnostic} (hd : d ∈ errorsOf t) {number : Nat}
    (hnumber : d.line = some number) : number ∈ t.numberedLines.map Prod.fst := by
  rcases List.mem_append.1 hd with hd | hd
  · rcases List.mem_append.1 hd with hd | hd
    · obtain ⟨-, hd⟩ := List.mem_ite_nil_right.1 hd
      obtain rfl := List.mem_singleton.1 hd
      obtain rfl : 1 = number := Option.some.inj hnumber
      exact Text.mem_map_fst_numberedLines.2 ⟨Nat.le_refl 1, Nat.le_add_left 1 _⟩
    · obtain ⟨-, hd⟩ := List.mem_ite_nil_right.1 hd
      obtain rfl := List.mem_singleton.1 hd
      cases hnumber
  · obtain ⟨number', hmem, rfl⟩ := List.mem_map.1 hd
    obtain rfl : number' = number := Option.some.inj hnumber
    exact mem_of_mem_unindented hmem

end Lint

theorem stored_lintScript (script : String) :
    (lintScript script).stored = (Lint.errorsOf script.toList).take 20 ++
      ((Lint.bareMentions (Text.numberedLines script.toList)).take 20).map
        fun mention => Lint.bareNameFinding mention.1 mention.2 := by
  rw [lintScript, Diagnostics.ofList_eq, Diagnostics.collected, Lint.errors_findings, Lint.warnings_findings,
    ← List.map_take]
  rfl

/-- With fewer than `UInt32.size - 1` line feeds in a script the numbers of lines that a check reports are words. -/
theorem lines_lt_of_lintScript {script : String} (hfeeds : Text.breaks script.toList < UInt32.size - 1)
    {d : Diagnostic} (hd : d ∈ (lintScript script).stored) {line : Nat} (hline : d.line = some line) :
    line < UInt32.size := by
  have hmem : line ∈ (Text.numberedLines script.toList).map Prod.fst := by
    rw [stored_lintScript] at hd
    rcases List.mem_append.1 hd with hd | hd
    · exact Lint.line_mem_of_mem_errorsOf (List.mem_of_mem_take hd) hline
    · obtain ⟨mention, hmention, rfl⟩ := List.mem_map.1 hd
      obtain rfl : mention.1 = line := Option.some.inj hline
      exact Lint.fst_mem_of_mem_bareMentions (List.mem_of_mem_take hmention)
  exact Nat.lt_of_le_of_lt (Text.mem_map_fst_numberedLines.1 hmem).2 (Nat.add_lt_of_lt_sub hfeeds)

end GridRobot
