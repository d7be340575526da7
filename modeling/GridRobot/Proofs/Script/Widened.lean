import Mathlib.Data.List.Forall2
import GridRobot.Proofs.Run.Retelling
import GridRobot.Proofs.Script.Headers
import GridRobot.Proofs.Script.Place

/-!
# Scripts with more space between their lines

A script is widened by putting gaps in front of line feeds. Such a gap may itself hold line feeds, which
makes blank lines, and lines further down then stand at greater numbers. `Text.Widened` says which texts
come from which, and it passes to what is left of two texts when the same is read off both. So the search
for headers finds the same names in both, with texts behind them that are related again
(`Text.Widened.headers`), and of the lines behind a header only numbers change and blank lines come in
(`Text.Widened.tidy_lines`). Both scripts therefore have the same runs up to the numbers of lines
(`Text.Widened.runScript`).
-/

namespace GridRobot

theorem eq_none_of_rel {α β : Type} {R : α → β → Prop} {x : Option β} (h : Option.Rel R none x) :
    x = none := by
  cases h
  rfl

theorem exists_of_rel_some {α β : Type} {R : α → β → Prop} {a : α} {x : Option β}
    (h : Option.Rel R (some a) x) : ∃ b, x = some b ∧ R a b := by
  cases h with
  | some hab => exact ⟨_, rfl, hab⟩

namespace Text

/-- `t'` is `t` with gaps in front of some line feeds. `number` takes the numbers of lines to what they
become, and `last` is the number of the last line of `t`. The number of any other line is found from there,
by counting the line feeds that follow, so that the relation holds of what is left of a text as it stands. -/
inductive Widened (number : Nat → Nat) (last : Nat) : Text → Text → Prop where
  | nil : Widened number last [] []
  | char {c : Char} {t t' : Text} (hc : c ≠ '\n') (h : Widened number last t t') :
      Widened number last (c :: t) (c :: t')
  | feed {gap t t' : Text} (hgap : ∀ c ∈ gap, isGap c = true)
      (hnumber : ∀ n, n + 1 + t.breaks = last → number (n + 1) = number n + gap.breaks + 1)
      (h : Widened number last t t') : Widened number last ('\n' :: t) (gap ++ '\n' :: t')

theorem exists_gap_cons {gap : Text} (hgap : ∀ c ∈ gap, isGap c = true) (t : Text) :
    ∃ c rest, gap ++ '\n' :: t = c :: rest ∧ isGap c = true := by
  cases gap with
  | nil => exact ⟨'\n', t, rfl, rfl⟩
  | cons c gap => exact ⟨c, gap ++ '\n' :: t, rfl, hgap c List.mem_cons_self⟩

namespace Widened

variable {number : Nat → Nat} {last : Nat} {t t' : Text}

/-- The same text in front of both sides keeps them related, if the numbers of its lines move together. -/
theorem append (start : Text) (h : Widened number last t t')
    (hstart : ∀ n, n + 1 + t.breaks ≤ last → last ≤ n + start.breaks + t.breaks →
      number (n + 1) = number n + 1) : Widened number last (start ++ t) (start ++ t') := by
  induction start with
  | nil => exact h
  | cons c start ih =>
      by_cases hc : c = '\n'
      · subst hc
        rw [breaks_cons_feed] at hstart
        show Widened number last ('\n' :: (start ++ t)) ([] ++ '\n' :: (start ++ t'))
        refine .feed (List.forall_mem_nil _) ?_ (ih fun n hlow hhigh => hstart n hlow (by omega))
        intro n hn
        rw [breaks_append] at hn
        exact hstart n (by omega) (by omega)
      · rw [breaks_cons_of_ne hc] at hstart
        exact .char hc (ih hstart)

/-- A text to whose lines nothing but a new number happens. -/
theorem of_number (t : Text)
    (ht : ∀ n, n + 1 ≤ last → last ≤ n + t.breaks → number (n + 1) = number n + 1) :
    Widened number last t t := by
  have happend := append t (.nil : Widened number last [] []) ht
  rwa [List.append_nil] at happend

/-- What is left of two texts starts on lines whose numbers correspond. -/
theorem breaks (h : Widened number last t t') {n : Nat} (hn : n + t.breaks = last) :
    number n + t'.breaks = number last := by
  induction h generalizing n with
  | nil => exact congrArg number hn
  | char hc h ih =>
      rw [breaks_cons_of_ne hc] at hn ⊢
      exact ih hn
  | @feed gap t t' hgap hnumber h ih =>
      rw [breaks_cons_feed] at hn
      have hnext := hnumber n (by omega)
      have hlast := ih (n := n + 1) (by omega)
      rw [breaks_append, breaks_cons_feed]
      omega

/-! ### Headers -/

theorem skipGap (h : Widened number last t t') : Widened number last t.skipGap t'.skipGap := by
  induction h with
  | nil => exact .nil
  | @char c t t' hc h ih =>
      unfold Text.skipGap at ih ⊢
      rw [List.dropWhile_cons, List.dropWhile_cons]
      split
      · exact ih
      · exact .char hc h
  | feed hgap hnumber h ih =>
      unfold Text.skipGap at ih ⊢
      rw [List.dropWhile_append_of_pos hgap, List.dropWhile_cons_of_pos rfl, List.dropWhile_cons_of_pos rfl]
      exact ih

theorem spanWord (h : Widened number last t t') :
    t.spanWord.1 = t'.spanWord.1 ∧ Widened number last t.spanWord.2 t'.spanWord.2 := by
  unfold Text.spanWord
  induction h with
  | nil => exact ⟨rfl, .nil⟩
  | @char c t t' hc h ih =>
      dsimp only at ih ⊢
      cases hword : isWordChar c with
      | true =>
          rw [List.takeWhile_cons_of_pos hword, List.takeWhile_cons_of_pos hword,
            List.dropWhile_cons_of_pos hword, List.dropWhile_cons_of_pos hword, ih.1]
          exact ⟨rfl, ih.2⟩
      | false =>
          have hnot : ¬ isWordChar c = true := by simp [hword]
          rw [List.takeWhile_cons_of_neg hnot, List.takeWhile_cons_of_neg hnot,
            List.dropWhile_cons_of_neg hnot, List.dropWhile_cons_of_neg hnot]
          exact ⟨rfl, .char hc h⟩
  | @feed gap t t' hgap hnumber h ih =>
      have hwide := Widened.feed hgap hnumber h
      obtain ⟨c, rest, hcons, hc⟩ := exists_gap_cons hgap t'
      have hnot : ¬ isWordChar c = true := by
        intro hword
        rw [isGap_eq_false_of_isWordChar hword] at hc
        cases hc
      rw [hcons] at hwide ⊢
      dsimp only
      rw [List.takeWhile_cons_of_neg hnot, List.dropWhile_cons_of_neg hnot]
      exact ⟨rfl, hwide⟩

theorem after? (start : Text) (hstart : ∀ c ∈ start, isGap c = false) (h : Widened number last t t') :
    Option.Rel (Widened number last) (Text.after? start t) (Text.after? start t') := by
  induction start generalizing t t' with
  | nil => exact .some h
  | cons c start ih =>
      obtain ⟨hc, hstart⟩ := List.forall_mem_cons.1 hstart
      have hne {d : Char} (hd : isGap d = true) : c ≠ d := by
        rintro rfl
        rw [hc] at hd
        cases hd
      cases h with
      | nil => exact .none
      | @char d t t' hd h =>
          rw [Text.after?, Text.after?]
          split
          · exact ih hstart h
          · exact .none
      | @feed gap t t' hgap hnumber h =>
          obtain ⟨d, rest, hcons, hd⟩ := exists_gap_cons hgap t'
          rw [hcons, Text.after?, Text.after?, if_neg (hne rfl), if_neg (hne hd)]
          exact .none

theorem exists_of_after? {start rest : Text} (hstart : ∀ c ∈ start, isGap c = false)
    (h : Widened number last t t') (hrest : Text.after? start t = some rest) :
    ∃ rest', t' = start ++ rest' ∧ Widened number last rest rest' := by
  have hafter := h.after? start hstart
  rw [hrest] at hafter
  obtain ⟨rest', hrest', hwide⟩ := exists_of_rel_some hafter
  exact ⟨rest', eq_append_of_after? hrest', hwide⟩

theorem expect? {c : Char} (hc : isGap c = false) (h : Widened number last t t') :
    Option.Rel (Widened number last) (Text.expect? c t) (Text.expect? c t') := by
  have hexpect (t : Text) : Text.expect? c t = Text.after? [c] t := by
    cases t with
    | nil => rfl
    | cons d t => simp [Text.expect?, Text.after?, eq_comm]
  rw [hexpect, hexpect]
  exact h.after? [c] (by simpa using hc)

theorem head?_isGap (h : Widened number last t t') : t.head?.any isGap = t'.head?.any isGap := by
  cases h with
  | nil => rfl
  | char hc h => rfl
  | @feed gap t t' hgap hnumber h =>
      obtain ⟨c, rest, hcons, hc⟩ := exists_gap_cons hgap t'
      rw [hcons]
      exact hc.symm

theorem afterParameters? (h : Widened number last t t') :
    Option.Rel (Widened number last) (Program.afterParameters? t) (Program.afterParameters? t') := by
  have hbind {x x' : Option Text} (hx : Option.Rel (Widened number last) x x') (c : Char)
      (hc : isGap c = false) : Option.Rel (Widened number last)
        (x.bind fun t => Text.expect? c t.skipGap) (x'.bind fun t => Text.expect? c t.skipGap) := by
    cases hx with
    | none => exact .none
    | some h => exact h.skipGap.expect? hc
  have hall := hbind (hbind (h.skipGap.expect? (c := '(') rfl) ')' rfl) ':' rfl
  rw [Option.bind_assoc, Option.bind_assoc] at hall
  exact hall

/-- Two headers with the same name and related texts behind them. -/
def Headed (number : Nat → Nat) (last : Nat) (x x' : Text × Text) : Prop :=
  x.1 = x'.1 ∧ Widened number last x.2 x'.2

theorem header? (h : Widened number last t t') :
    Option.Rel (Headed number last) (Program.header? t) (Program.header? t') := by
  obtain ⟨hword, hrest⟩ := h.skipGap.spanWord
  unfold Program.header?
  dsimp only
  rw [h.head?_isGap, hword]
  split
  · have hparameters := hrest.afterParameters?
    generalize Program.afterParameters? t.skipGap.spanWord.2 = x at hparameters ⊢
    generalize Program.afterParameters? t'.skipGap.spanWord.2 = x' at hparameters ⊢
    cases hparameters with
    | none => exact .none
    | some h => exact .some ⟨rfl, h⟩
  · exact .none

theorem headers (h : Widened number last t t') :
    List.Forall₂ (Headed number last) (Program.headers t) (Program.headers t') := by
  have hdef (c : Char) (hc : c ∈ ['d', 'e', 'f']) : isGap c = false := by
    simp only [List.mem_cons, List.not_mem_nil, or_false] at hc
    rcases hc with rfl | rfl | rfl <;> rfl
  fun_induction Program.headers t generalizing t' with
  | case1 =>
      cases h
      rw [Program.headers]
      exact .nil
  | case2 c cs hnone ih =>
      have hafter := h.after? ['d', 'e', 'f'] hdef
      rw [hnone] at hafter
      cases h with
      | @char c t t' hc h =>
          rw [Program.headers_cons_of_after?_eq_none (eq_none_of_rel hafter)]
          exact ih h
      | @feed gap t t' hgap hnumber h =>
          have hno : 'd' ∉ gap ++ ['\n'] := by
            intro hmem
            rcases List.mem_append.1 hmem with hmem | hmem
            · cases hgap 'd' hmem
            · exact absurd hmem (by decide)
          rw [List.append_cons, Program.headers_append_of_not_mem hno]
          exact ih h
  | case3 c cs rest hsome hnone ih =>
      obtain ⟨rest', rfl, hrest⟩ := h.exists_of_after? hdef hsome
      have hheader := hrest.header?
      rw [hnone] at hheader
      rw [Program.headers_def, eq_none_of_rel hheader]
      exact ih hrest
  | case4 c cs rest hsome name behind hheader ih =>
      obtain ⟨rest', rfl, hrest⟩ := h.exists_of_after? hdef hsome
      have hheaders := hrest.header?
      rw [hheader] at hheaders
      obtain ⟨⟨name', behind'⟩, hheader', hheaded⟩ := exists_of_rel_some hheaders
      rw [Program.headers_def, hheader']
      exact .cons hheaded (ih hheaded.2)

/-! ### Lines -/

/-- A gap in front of a line feed puts blanks behind the line and blank lines below it. -/
theorem tidy_read_gap {gap : Text} (hgap : ∀ c ∈ gap, isGap c = true) {start : Text}
    (hstart : '\n' ∉ start) (n : Nat) (t : Text) :
    Line.tidy number (Block.read ⟨n, lines (start ++ (gap ++ '\n' :: t))⟩) =
      Line.tidy number (Line.read n start :: Block.read ⟨n + gap.breaks + 1, lines t⟩) := by
  induction gap generalizing start n with
  | nil =>
      rw [List.nil_append, lines, pieces_append_cons hstart, Block.read_cons]
      rfl
  | cons c gap ih =>
      obtain ⟨hc, hmore⟩ := List.forall_mem_cons.1 hgap
      by_cases hfeed : c = '\n'
      · subst hfeed
        have hbelow := ih hmore (List.not_mem_nil : '\n' ∉ ([] : Text)) (n + 1)
        rw [Line.tidy_cons_of_blank number (Line.blank_read (n + 1)), List.nil_append] at hbelow
        rw [List.cons_append, lines, pieces_append_cons hstart, Block.read_cons, breaks_cons_feed,
          ← Nat.add_assoc, Nat.add_right_comm n]
        have hline := congrArg (Line.tidy number [Line.read n start] ++ ·) hbelow
        rw [← Line.tidy_append, ← Line.tidy_append] at hline
        exact hline
      · have hstart' : '\n' ∉ start ++ [c] := by simp [hstart, Ne.symm hfeed]
        have hline := ih hmore hstart' n
        rw [Line.read_concat (isBlank_of_isGap hc), List.append_assoc] at hline
        rw [breaks_cons_of_ne hfeed, ← hline]
        rfl

theorem tidy_lines (h : Widened number last t t') {start : Text} (hstart : '\n' ∉ start) {n : Nat}
    (hn : n + t.breaks = last) :
    Line.tidy number (Block.read ⟨n, lines (start ++ t)⟩) =
      Line.tidy id (Block.read ⟨number n, lines (start ++ t')⟩) := by
  induction h generalizing start n with
  | nil =>
      rw [List.append_nil, lines, pieces_of_not_mem hstart, Block.read_cons, Block.read_cons]
      exact Line.tidy_read_cons number n start rfl
  | @char c t t' hc h ih =>
      have hstart' : '\n' ∉ start ++ [c] := by simp [hstart, Ne.symm hc]
      rw [breaks_cons_of_ne hc] at hn
      have hline := ih hstart' hn
      rw [List.append_assoc, List.append_assoc] at hline
      exact hline
  | @feed gap t t' hgap hnumber h ih =>
      rw [breaks_cons_feed] at hn
      have hbelow := ih (List.not_mem_nil : '\n' ∉ ([] : Text)) (n := n + 1) (by omega)
      rw [tidy_read_gap hgap hstart, lines, pieces_append_cons hstart, Block.read_cons,
        ← hnumber n (by omega)]
      exact Line.tidy_read_cons number n start hbelow

theorem tidy_body (h : Widened number last t t') {n : Nat} (hn : n + t.breaks = last) :
    Line.tidy number (Block.read ⟨n, Text.block t.lines⟩) =
      Line.tidy id (Block.read ⟨number n, Text.block t'.lines⟩) := by
  have hlines := h.tidy_lines (List.not_mem_nil : '\n' ∉ ([] : Text)) hn
  rw [List.nil_append, List.nil_append] at hlines
  rw [← Line.block_read, ← Line.block_read, ← Line.block_tidy, ← Line.block_tidy, hlines]

/-! ### Programs -/

theorem breaks_le_of_mem_headers {name behind : Text} (h : (name, behind) ∈ Program.headers t) :
    behind.breaks ≤ t.breaks := by
  obtain ⟨before, header, -, rfl⟩ := Program.isHeader_of_mem_headers h
  rw [breaks_append]
  omega

/-- The procedures of a widened script have the same names and, when tidied, the same bodies. -/
theorem procedures (h : Widened number (t.breaks + 1) t t') (hone : number 1 = 1) :
    (Program.ofText t).procedures.map (fun q => (q.name, Line.tidy number q.body.read)) =
      (Program.ofText t').procedures.map fun q => (q.name, Line.tidy id q.body.read) := by
  have hlast := h.breaks (Nat.add_comm 1 t.breaks)
  obtain ⟨hlength, hheaders⟩ := List.forall₂_iff_zip.1 h.headers
  rw [← List.forall₂_eq_eq_eq, Program.ofText_eq, Program.ofText_eq, List.map_map, List.map_map,
    List.forall₂_map_left_iff, List.forall₂_map_right_iff, List.forall₂_iff_zip]
  refine ⟨hlength, ?_⟩
  rintro ⟨name, behind⟩ ⟨name', behind'⟩ hmem
  obtain ⟨hname, hbehind⟩ := hheaders hmem
  dsimp only at hname hbehind
  obtain ⟨hleft, hright⟩ := List.of_mem_zip hmem
  have hle := breaks_le_of_mem_headers hleft
  have hle' := breaks_le_of_mem_headers hright
  have hn : t.breaks - behind.breaks + 1 + behind.breaks = t.breaks + 1 := by omega
  have hfirst := hbehind.breaks hn
  have hnumber : number (t.breaks - behind.breaks + 1) = t'.breaks - behind'.breaks + 1 := by omega
  have hbody := hbehind.tidy_body hn
  rw [hnumber] at hbody
  exact Prod.ext (congrArg String.ofList hname) hbody

/-- Running a widened script comes to the same up to the numbers of lines. -/
theorem runScript {script script' : String}
    (h : Widened number (Text.breaks script.toList + 1) script.toList script'.toList) (hone : number 1 = 1)
    (world : World) (limit : Nat) :
    runScript script' world limit = RunResult.renumber number (runScript script world limit) := by
  have hcode : (Code.ofProgram (Program.parse script)).tidy number =
      (Code.ofProgram (Program.parse script')).tidy id := by
    have hprocedures := h.procedures hone
    unfold Code.tidy Code.ofProgram
    rw [List.map_map, List.map_map, List.map_reverse, List.map_reverse]
    exact congrArg (fun bodies => Code.mk bodies.reverse) hprocedures
  have hbody (name : String) :
      ((Code.ofProgram (Program.parse script)).body? name).map (Line.tidy number) =
        ((Code.ofProgram (Program.parse script')).body? name).map (Line.tidy id) := by
    rw [← Code.body?_tidy, ← Code.body?_tidy, hcode]
  have hrun := Program.renumber_runObserved hbody limit world (fun (_ : Unit) _ => ()) () (fun _ _ => ()) ()
  rw [RunResult.renumber_id] at hrun
  exact hrun.symm

end Widened

end Text

end GridRobot
