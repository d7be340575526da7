import Mathlib.Data.List.Chain
import GridRobot.Proofs.Lint.Findings
import GridRobot.Proofs.Plan.Seams

/-!
# Checking the script of a plan

Nothing is found in the script of a plan (`Plan.lintScript_render`). Its words are keywords, which are not in
the vocabulary, and names with a parenthesis behind them, which are called; so it does not matter that a name
may be one of the vocabulary, or have one inside it. Every line has as many opening parentheses as closing
ones. And every line is indented but the headers of procedures, which come behind a call: the last line of a
block is one, however deep the blocks nest (`Tree.endsInCall_rows`).
-/

namespace GridRobot

namespace Lint

/-! ### Words -/

section Words

variable {name : Text} (hne : name ≠ []) (hword : ∀ c ∈ name, Text.isWordChar c = true)

include hne hword

theorem not_mentionedBehind_of_not_isWordChar {t : Text} (ht : t.any Text.isWordChar = false)
    (passed : Text) : ¬ MentionedBehind name passed t := by
  rintro ⟨before, after, rfl, -⟩
  obtain ⟨c, hc⟩ := List.exists_mem_of_ne_nil name hne
  rw [List.any_eq_true.2 ⟨c, by simp [hc], hword c hc⟩] at ht
  cases ht

/-- A mention is a whole word: it is the first word of the text or comes behind it. -/
theorem MentionedBehind.of_word {passed w rest : Text} {c : Char} (hw : ∀ d ∈ w, Text.isWordChar d = true)
    (hc : Text.isWordChar c = false) (h : MentionedBehind name passed (w ++ c :: rest)) :
    name = w ∧ Bare passed (c :: rest) ∨ MentionedBehind name (passed ++ (w ++ [c])) rest := by
  obtain ⟨before, after, ht, hbare⟩ := h
  rcases List.append_eq_append_iff.1 ht with ⟨middle, rfl, hmiddle⟩ | ⟨middle, rfl, hmiddle⟩
  · cases middle with
    | nil =>
        obtain ⟨d, ds, rfl⟩ := List.exists_cons_of_ne_nil hne
        obtain ⟨rfl, -⟩ := List.cons.inj hmiddle
        rw [hword c List.mem_cons_self] at hc
        cases hc
    | cons d middle =>
        obtain ⟨rfl, rfl⟩ := List.cons.inj hmiddle
        refine .inr ⟨middle, after, rfl, ?_⟩
        rwa [List.append_assoc, List.append_assoc]
  · obtain rfl : before = [] := by
      apply Classical.byContradiction
      intro hbefore
      have hlast : (passed ++ before).getLast? = some (before.getLast hbefore) := by
        rw [List.getLast?_append_of_ne_nil passed hbefore, List.getLast?_eq_some_getLast hbefore]
      have hlastWord := hw _ (List.mem_append_left middle (List.getLast_mem hbefore))
      rw [hbare.starts _ hlast] at hlastWord
      cases hlastWord
    rw [List.append_nil] at hbare
    rw [List.nil_append] at hw
    have hname : Text.spanWord (name ++ after) = (name, after) :=
      Text.spanWord_eq_iff.2 ⟨rfl, hword, hbare.ends⟩
    have hfirst : Text.spanWord (middle ++ c :: rest) = (middle, c :: rest) := by
      refine Text.spanWord_eq_iff.2 ⟨rfl, hw, ?_⟩
      intro d hd
      obtain rfl : c = d := Option.some.inj hd
      exact hc
    rw [hmiddle, hfirst] at hname
    obtain ⟨rfl, rfl⟩ := Prod.mk.inj hname
    exact .inl ⟨rfl, hbare⟩

/-- A name with a parenthesis behind it is called. -/
theorem not_mentionedBehind_call (w : Word) {rest : Text} (hrest : rest.any Text.isWordChar = false)
    (passed : Text) : ¬ MentionedBehind name passed (w.text ++ '(' :: rest) := by
  intro h
  rcases h.of_word hne hword w.wordChars (by decide) with ⟨-, hbare⟩ | h
  · exact hbare.uncalled rfl
  · exact not_mentionedBehind_of_not_isWordChar hne hword hrest _ h

end Words

theorem word_of_mem_headerWords {word : String} (h : word ∈ headerWords) :
    word ∉ vocabulary ∧ ∀ c ∈ word.toList, Text.isWordChar c = true := by
  have hall : ∀ word ∈ headerWords, word ∉ vocabulary ∧ word.toList.all Text.isWordChar = true := by decide
  exact ⟨(hall word h).1, List.all_eq_true.1 (hall word h).2⟩

theorem not_mentioned_headerWord (word : String) (hheader : word ∈ headerWords) {name : String}
    (hname : name ∈ vocabulary) {c : Char} (hc : Text.isWordChar c = false) {rest : Text}
    (hrest : ∀ passed, ¬ MentionedBehind name.toList passed rest) :
    ¬ Mentioned name.toList (word.toList ++ c :: rest) := by
  obtain ⟨hne, hword⟩ := word_of_mem_vocabulary hname
  obtain ⟨hnone, hheaderWord⟩ := word_of_mem_headerWords hheader
  intro h
  have h : MentionedBehind name.toList [] (word.toList ++ c :: rest) := h
  rcases h.of_word hne hword hheaderWord hc with ⟨heq, -⟩ | h
  · exact hnone (String.toList_inj.1 heq ▸ hname)
  · exact hrest _ h

/-- A header of a plan mentions no name, whatever its condition is called. -/
theorem not_mentioned_header (word : String) (hheader : word ∈ headerWords) {name : String}
    (hname : name ∈ vocabulary) (w : Word) :
    ¬ Mentioned name.toList (word.toList ++ ' ' :: (w.text ++ "():".toList)) := by
  obtain ⟨hne, hword⟩ := word_of_mem_vocabulary hname
  exact not_mentioned_headerWord word hheader hname (by decide)
    (not_mentionedBehind_call hne hword w (by decide))

theorem not_mentioned_phrase {name : String} (hname : name ∈ vocabulary) (ph : Phrase) :
    ¬ Mentioned name.toList ph.text := by
  obtain ⟨hne, hword⟩ := word_of_mem_vocabulary hname
  cases ph with
  | call w => exact not_mentionedBehind_call hne hword w (by decide) []
  | loop w => exact not_mentioned_header "while" (by decide) hname w
  | branch w => exact not_mentioned_header "if" (by decide) hname w
  | elseIf w => exact not_mentioned_header "elif" (by decide) hname w
  | otherwise =>
      exact not_mentioned_headerWord "else" (by decide) hname (by decide)
        (not_mentionedBehind_nil hne)

theorem bareNames_eq_nil {line : Text} (h : ∀ name ∈ vocabulary, ¬ Mentioned name.toList line.trim) :
    bareNames line = [] := by
  rw [bareNames_eq, List.filter_eq_nil_iff]
  intro name hname
  rw [decide_eq_true_eq]
  exact fun hmentioned => h name hname hmentioned.2

theorem OpensBlock.colon_mem {line : Text} (h : OpensBlock line) : ':' ∈ line := by
  rcases h with ⟨word, -, c, rest, rfl, -, hcolon⟩ | ⟨gap, rest, rfl, -⟩
  · simp [hcolon]
  · simp

theorem lineFindings_eq_nil {lines : List (Nat × Text)}
    (hnames : ∀ line ∈ lines.map Prod.snd, bareNames line = [])
    (hchain : (lines.map Prod.snd).IsChain (lacksIndent · · = false)) : lineFindings lines = [] := by
  induction lines with
  | nil => rfl
  | cons line rest ih =>
      obtain ⟨hline, hrest⟩ := List.forall_mem_cons.1 hnames
      rw [List.map_cons, List.isChain_cons] at hchain
      have hindent : indentFindings line.2 rest.head? = [] := by
        cases rest with
        | nil => rfl
        | cons next rest =>
            have hlacks : lacksIndent line.2 next.2 = false := hchain.1 next.2 rfl
            rw [List.head?_cons, indentFindings, hlacks]
            rfl
      rw [lineFindings, hline, hindent, ih hrest hchain.2]
      rfl

end Lint

/-! ### Lines -/

theorem Phrase.solid_text (ph : Phrase) : ph.text.Solid where
  nonempty := ph.text_ne_nil
  head c hc := Text.isBlank_eq_false_of_isWordChar (ph.head_text c hc)
  last := ph.getLast_text

theorem Routine.solid_header (r : Routine) : r.header.Solid := by
  have hd : Text.Solid ['d'] := Text.solid_singleton (by decide)
  have hcolon : Text.Solid [':'] := Text.solid_singleton (by decide)
  have hsolid := hd.append_append hcolon ("ef ".toList ++ r.name.text ++ "()".toList)
  rw [List.append_assoc, List.append_assoc _ "()".toList] at hsolid
  exact hsolid

theorem Text.Solid.dropReturns_append {t : Text} (h : t.Solid) (lead : Text) :
    dropReturns (lead ++ t) = lead ++ t := by
  obtain ⟨c, cs, hreverse⟩ := List.exists_cons_of_ne_nil (mt List.reverse_eq_nil_iff.1 h.nonempty)
  have hc : c ≠ '\r' := by
    rintro rfl
    have hlast : t.getLast? = some '\r' := by rw [← List.head?_reverse, hreverse]; rfl
    cases h.last _ hlast
  rw [dropReturns, List.reverse_append, hreverse, List.cons_append,
    List.dropWhile_cons_of_neg (by simpa using hc), ← List.cons_append, ← hreverse, ← List.reverse_append,
    List.reverse_reverse]

/-- A word has no parentheses, so those behind it have to be balanced. -/
theorem Word.balanced_append (w : Word) (keyword : Text) {rest : Text} (hopen : '(' ∉ keyword)
    (hclose : ')' ∉ keyword) (hrest : rest.count '(' = rest.count ')') :
    (keyword ++ w.text ++ rest).count '(' = (keyword ++ w.text ++ rest).count ')' := by
  have hword {c : Char} (hc : Text.isWordChar c = false) : w.text.count c = 0 :=
    List.count_eq_zero.2 (w.not_mem_text hc)
  rw [List.count_append, List.count_append, List.count_append, List.count_append, List.count_eq_zero.2 hopen,
    List.count_eq_zero.2 hclose, hword (by decide), hword (by decide), hrest]

theorem Phrase.balanced_text (ph : Phrase) : ph.text.count '(' = ph.text.count ')' := by
  cases ph with
  | call name => exact name.balanced_append [] List.not_mem_nil List.not_mem_nil rfl
  | loop condition => exact condition.balanced_append "while ".toList (by decide) (by decide) rfl
  | branch condition => exact condition.balanced_append "if ".toList (by decide) (by decide) rfl
  | elseIf condition => exact condition.balanced_append "elif ".toList (by decide) (by decide) rfl
  | otherwise => rfl

namespace Text.OfPlan

variable {l : Text} (h : OfPlan l)

include h

theorem bareNames_eq_nil : Lint.bareNames l = [] := by
  apply Lint.bareNames_eq_nil
  intro name hname
  cases h with
  | blank =>
      obtain ⟨hne, -⟩ := Lint.word_of_mem_vocabulary hname
      exact Lint.not_mentionedBehind_nil hne []
  | row r =>
      rw [Row.text, r.phrase.trim_text]
      exact Lint.not_mentioned_phrase hname r.phrase
  | header r =>
      have htrim : trim r.header = r.header := r.solid_header.trim_replicate_append 0
      rw [htrim]
      exact Lint.not_mentioned_header "def" (by decide) hname r.name

theorem dropReturns_eq : dropReturns l = l := by
  cases h with
  | blank => rfl
  | row r => exact r.phrase.solid_text.dropReturns_append _
  | header r => exact r.solid_header.dropReturns_append []

theorem balanced : l.count '(' = l.count ')' := by
  cases h with
  | blank => rfl
  | row r =>
      have hindent (c : Char) (hc : c ≠ ' ') : (List.replicate (4 * r.depth) ' ').count c = 0 := by
        rw [List.count_eq_zero, List.mem_replicate]
        exact fun hmem => hc hmem.2
      rw [Row.text, List.count_append, List.count_append, hindent _ (by decide), hindent _ (by decide),
        r.phrase.balanced_text]
  | header r => exact r.name.balanced_append "def ".toList (by decide) (by decide) rfl

end Text.OfPlan

theorem Text.map_snd_numberedLines (t : Text) : t.numberedLines.map Prod.snd = t.lines.map dropReturns := by
  apply List.ext_getElem?
  intro i
  rw [List.getElem?_map, List.getElem?_map, numberedLines, List.getElem?_mapIdx, Option.map_map]
  rfl

theorem Text.balanced_below {ls : List Text} (hls : ∀ l ∈ ls, l.count '(' = l.count ')') :
    (below ls).count '(' = (below ls).count ')' := by
  induction ls with
  | nil => rfl
  | cons l ls ih =>
      obtain ⟨hl, hls⟩ := List.forall_mem_cons.1 hls
      rw [below_cons, List.count_cons_of_ne (by decide), List.count_cons_of_ne (by decide), List.count_append,
        List.count_append, hl, ih hls]

/-! ### Ends of blocks -/

/-- The last of the rows is a call. -/
def Row.EndsInCall (rows : List Row) : Prop := ∃ above depth name, rows = above ++ [⟨depth, .call name⟩]

theorem Row.EndsInCall.append {rows : List Row} (h : EndsInCall rows) (above : List Row) :
    EndsInCall (above ++ rows) := by
  obtain ⟨above', depth, name, rfl⟩ := h
  exact ⟨above ++ above', depth, name, (List.append_assoc ..).symm⟩

theorem Row.EndsInCall.append_or {rows below : List Row} (h : EndsInCall rows)
    (hbelow : below = [] ∨ EndsInCall below) : EndsInCall (rows ++ below) := by
  rcases hbelow with rfl | hbelow
  · rwa [List.append_nil]
  · exact hbelow.append rows

mutual

theorem Tree.endsInCall_rows (depth : Nat) : (t : Tree) → Row.EndsInCall (t.rows depth)
  | .call name => ⟨[], depth, name, rfl⟩
  | .loop condition first more => by
      have hbody := (first.endsInCall_rows (depth + 1)).append_or (more.endsInCall_rows (depth + 1))
      exact hbody.append [⟨depth, .loop condition⟩]
  | .branch condition first more others => by
      have hbody := (first.endsInCall_rows (depth + 1)).append_or (more.endsInCall_rows (depth + 1))
      have hclauses := hbody.append_or (others.endsInCall_rows depth)
      exact hclauses.append [⟨depth, .branch condition⟩]

theorem Forest.endsInCall_rows (depth : Nat) :
    (f : Forest) → f.rows depth = [] ∨ Row.EndsInCall (f.rows depth)
  | .nil => .inl rfl
  | .cons first more => .inr ((first.endsInCall_rows depth).append_or (more.endsInCall_rows depth))

theorem Branches.endsInCall_rows (depth : Nat) :
    (others : Branches) → others.rows depth = [] ∨ Row.EndsInCall (others.rows depth)
  | .done => .inl rfl
  | .otherwise first more => by
      have hbody := (first.endsInCall_rows (depth + 1)).append_or (more.endsInCall_rows (depth + 1))
      exact .inr (hbody.append [⟨depth, .otherwise⟩])
  | .elseIf condition first more others => by
      have hbody := (first.endsInCall_rows (depth + 1)).append_or (more.endsInCall_rows (depth + 1))
      have hclauses := hbody.append_or (others.endsInCall_rows depth)
      exact .inr (hclauses.append [⟨depth, .elseIf condition⟩])

end

/-! ### Indentation -/

theorem Row.isHeader_call (depth : Nat) (name : Word) :
    Lint.isHeader (Text.trim (Row.text ⟨depth, .call name⟩)) = false := by
  rw [Row.text, Phrase.trim_text, Bool.eq_false_iff]
  intro hheader
  have hcolon : ':' ∈ name.text ++ "()".toList := (Lint.isHeader_iff.1 hheader).colon_mem
  have hname := name.not_mem_text (c := ':') (by decide)
  simp [hname] at hcolon

theorem Row.head?_text {r : Row} (h : 1 ≤ r.depth) : r.text.head? = some ' ' := by
  obtain ⟨n, hn⟩ : ∃ n, 4 * r.depth = n + 1 := ⟨4 * r.depth - 1, by omega⟩
  rw [Row.text, hn, List.replicate_succ]
  rfl

theorem isChain_of_forall_mem {α : Type} {R : α → α → Prop} {l : List α} (h : ∀ b ∈ l, ∀ a, R a b) :
    l.IsChain R := by
  induction l with
  | nil => exact .nil
  | cons b l ih =>
      obtain ⟨-, hl⟩ := List.forall_mem_cons.1 h
      exact List.isChain_cons.2 ⟨fun c hc => hl c (List.mem_of_mem_head? hc) b, ih hl⟩

namespace Routine

theorem isChain_lines (r : Routine) : r.lines.IsChain (Lint.lacksIndent · · = false) := by
  have hrows : ∀ l ∈ (r.body.rows 1).map Row.text, ∀ above, Lint.lacksIndent above l = false := by
    intro l hl above
    obtain ⟨row, hrow, rfl⟩ := List.mem_map.1 hl
    have hhead := Row.head?_text (Forest.le_depth 1 r.body row hrow)
    simp [Lint.lacksIndent, hhead]
  refine List.isChain_cons.2 ⟨?_, isChain_of_forall_mem hrows⟩
  exact fun l hl => hrows l (List.mem_of_mem_head? hl) r.header

theorem lacksIndent_getLast (r : Routine) (next : Text) :
    ∀ l ∈ r.lines.getLast?, Lint.lacksIndent l next = false := by
  intro l hl
  obtain ⟨above, depth, name, hrows⟩ : Row.EndsInCall (r.body.rows 1) :=
    (r.first.endsInCall_rows 1).append_or (r.more.endsInCall_rows 1)
  rw [lines, hrows, List.map_append, ← List.cons_append, List.map_singleton, List.getLast?_concat] at hl
  obtain rfl := Option.some.inj hl
  rw [Lint.lacksIndent, Row.isHeader_call]
  rfl

theorem isChain_flatMap_lines (rs : List Routine) (feeds : Nat) :
    (rs.flatMap lines ++ List.replicate feeds []).IsChain (Lint.lacksIndent · · = false) := by
  induction rs with
  | nil =>
      apply isChain_of_forall_mem
      intro l hl above
      rw [List.eq_of_mem_replicate hl, Lint.lacksIndent]
      simp [Text.isEmptyLine]
  | cons r rs ih =>
      rw [List.flatMap_cons, List.append_assoc, List.isChain_append]
      exact ⟨r.isChain_lines, ih, fun l hl next _ => r.lacksIndent_getLast next l hl⟩

end Routine

namespace Plan

theorem ofPlan_of_mem_lines_append (plan : Plan) (feeds : Nat) :
    ∀ l ∈ plan.lines ++ List.replicate feeds [], l.OfPlan := by
  intro l hl
  rcases List.mem_append.1 hl with hl | hl
  · exact plan.ofPlan_of_mem_lines hl
  · rw [List.eq_of_mem_replicate hl]
    exact .blank

theorem lines_render (plan : Plan) (feeds : Nat) :
    Text.lines (plan.render feeds).toList = plan.lines ++ List.replicate feeds [] := by
  have hrender := plan.newline_cons_render feeds
  have hls := plan.ofPlan_of_mem_lines_append feeds
  cases hlines : plan.lines ++ List.replicate feeds [] with
  | nil => rw [hlines] at hrender; cases hrender
  | cons l ls =>
      rw [hlines] at hrender hls
      obtain ⟨hl, hls⟩ := List.forall_mem_cons.1 hls
      rw [(List.cons.inj hrender).2]
      exact Text.lines_append_below hl.newline_not_mem fun l hl => (hls l hl).newline_not_mem

theorem entryPointFindings_render (plan : Plan) (feeds : Nat) :
    Lint.entryPointFindings (plan.render feeds).toList = [] := by
  have hdefines : (Program.parse (plan.render feeds)).defines entryPoint = true := by
    rw [Program.defines_iff, plan.parse_render, Program.names_ofRoutines]
    exact plan.hasEntryPoint
  exact if_pos (Bool.or_eq_true_iff.2 (.inr hdefines))

theorem parenthesisFindings_render (plan : Plan) (feeds : Nat) :
    Lint.parenthesisFindings (plan.render feeds).toList = [] := by
  have hbalanced := Text.balanced_below fun l hl => (plan.ofPlan_of_mem_lines_append feeds l hl).balanced
  rw [← plan.newline_cons_render, List.count_cons_of_ne (by decide),
    List.count_cons_of_ne (by decide)] at hbalanced
  exact if_pos hbalanced

theorem lineFindings_render (plan : Plan) (feeds : Nat) :
    Lint.lineFindings (Text.numberedLines (plan.render feeds).toList) = [] := by
  have hlines : (Text.numberedLines (plan.render feeds).toList).map Prod.snd =
      plan.lines ++ List.replicate feeds [] := by
    rw [Text.map_snd_numberedLines, plan.lines_render]
    exact (List.map_congr_left fun l hl => (plan.ofPlan_of_mem_lines_append feeds l hl).dropReturns_eq).trans
      (List.map_id _)
  apply Lint.lineFindings_eq_nil
  · rw [hlines]
    exact fun l hl => (plan.ofPlan_of_mem_lines_append feeds l hl).bareNames_eq_nil
  · rw [hlines]
    exact Routine.isChain_flatMap_lines plan.routines feeds

/-- Nothing is found in the script of a plan. -/
theorem lintScript_render (plan : Plan) (feeds : Nat) : lintScript (plan.render feeds) = .empty := by
  rw [lintScript, Lint.findings, entryPointFindings_render, parenthesisFindings_render, lineFindings_render]
  rfl

end Plan

end GridRobot
