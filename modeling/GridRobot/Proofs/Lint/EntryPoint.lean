import GridRobot.Lint.Check
import GridRobot.Proofs.Run.Blame
import GridRobot.Proofs.Script.Headers

/-!
# What a check finds, and the entry point

A collection of diagnostics keeps the first errors and the first warnings that it is given and counts all
of them (`Diagnostics.ofList_eq`). The missing entry point is looked for before anything else, so it is
stored whatever else there is to find. A run asks for the entry point too, at its very start and never
again: it fails for want of one exactly if a check of the script reports that or has nothing to look at
(`noEntryPoint_iff_reported`).
-/

namespace GridRobot

/-! ### Collections -/

namespace Diagnostics

/-- The findings of one severity. -/
def ofSeverity (severity : Severity) (ds : List Diagnostic) : List Diagnostic :=
  ds.filter (·.severity = severity)

/-- What a collection of findings comes to. -/
def collected (ds : List Diagnostic) : Diagnostics where
  errors := (ofSeverity .error ds).take maxDiagnostics
  warnings := (ofSeverity .warning ds).take maxDiagnostics
  totalErrors := (ofSeverity .error ds).length
  totalWarnings := (ofSeverity .warning ds).length

theorem store_take (ds : List Diagnostic) (d : Diagnostic) :
    store (ds.take maxDiagnostics) d = (ds ++ [d]).take maxDiagnostics := by
  unfold store
  rw [List.length_take]
  split
  · next hlt =>
      rw [List.take_of_length_le (by omega), List.take_of_length_le (by simp; omega)]
  · next hfull => rw [List.take_append_of_le_length (by omega)]

theorem push_collected (ds : List Diagnostic) (d : Diagnostic) :
    push (collected ds) d = collected (ds ++ [d]) := by
  unfold push collected ofSeverity
  simp only [List.filter_append]
  cases hd : d.severity with
  | error => simp [store_take, hd]
  | warning => simp [store_take, hd]

/-- The first errors and the first warnings are stored, and all of them are counted. -/
theorem ofList_eq (ds : List Diagnostic) : ofList ds = collected ds := by
  have hfold (before : List Diagnostic) : ds.foldl push (collected before) = collected (before ++ ds) := by
    induction ds generalizing before with
    | nil => rw [List.foldl_nil, List.append_nil]
    | cons d ds ih => rw [List.foldl_cons, push_collected, ih, List.append_assoc, List.singleton_append]
  exact hfold []

theorem totalErrors_ofList_eq_zero_iff (ds : List Diagnostic) :
    (ofList ds).totalErrors = 0 ↔ ∀ d ∈ ds, d.severity ≠ .error := by
  rw [ofList_eq]
  show (ds.filter (·.severity = .error)).length = 0 ↔ _
  rw [List.length_eq_zero_iff, List.filter_eq_nil_iff]
  simp only [decide_eq_true_eq, ne_eq]

end Diagnostics

namespace Lint

/-! ### The entry point -/

theorem code_of_mem_parenthesisFindings {t : Text} {d : Diagnostic} (h : d ∈ parenthesisFindings t) :
    d.code = .unbalancedParentheses := by
  unfold parenthesisFindings at h
  dsimp only at h
  split at h
  · cases h
  · split at h
    all_goals
      rw [List.mem_singleton.1 h]

theorem code_of_mem_indentFindings {line : Text} {next : Option (Nat × Text)} {d : Diagnostic}
    (h : d ∈ indentFindings line next) : d.code = .expectedIndent := by
  unfold indentFindings at h
  split at h
  · split at h
    · rw [List.mem_singleton.1 h]
    · cases h
  · cases h

theorem code_of_mem_lineFindings {lines : List (Nat × Text)} {d : Diagnostic} (h : d ∈ lineFindings lines) :
    d.code = .callWithoutParentheses ∨ d.code = .expectedIndent := by
  induction lines with
  | nil => cases h
  | cons line rest ih =>
      rw [lineFindings, List.mem_append, List.mem_append] at h
      rcases h with (h | h) | h
      · obtain ⟨name, -, rfl⟩ := List.mem_map.1 h
        exact .inl rfl
      · exact .inr (code_of_mem_indentFindings h)
      · exact ih h

/-- Only the look for an entry point finds that there is none. -/
theorem mem_entryPointFindings_of_code {t : Text} {d : Diagnostic} (h : d ∈ findings t)
    (hcode : d.code = .missingMain) : d ∈ entryPointFindings t := by
  rw [findings, List.mem_append, List.mem_append] at h
  rcases h with (h | h) | h
  · exact h
  · rw [code_of_mem_parenthesisFindings h] at hcode
    cases hcode
  · rcases code_of_mem_lineFindings h with h | h
    all_goals
      rw [h] at hcode
      cases hcode

/-- A missing entry point is always among the errors that are stored. -/
theorem missingMain_stored_iff (script : String) :
    (∃ d ∈ (lintScript script).errors, d.code = .missingMain) ↔
      Text.isEmptyLine script.toList = false ∧ (Program.parse script).defines entryPoint = false := by
  rw [lintScript, Diagnostics.ofList_eq]
  constructor
  · rintro ⟨d, hd, hcode⟩
    have hmem := mem_entryPointFindings_of_code (List.mem_filter.1 (List.mem_of_mem_take hd)).1 hcode
    unfold entryPointFindings at hmem
    split at hmem
    · cases hmem
    · next hnone =>
        rw [Bool.not_eq_true, Bool.or_eq_false_iff] at hnone
        exact hnone
  · rintro ⟨hblank, hdefines⟩
    have hfound : entryPointFindings script.toList =
        [⟨.missingMain, "main() is not defined", some 1, some "def main():"⟩] := by
      unfold entryPointFindings
      rw [hblank]
      change (Program.ofText script.toList).defines entryPoint = false at hdefines
      rw [hdefines]
      rfl
    refine ⟨⟨.missingMain, "main() is not defined", some 1, some "def main():"⟩, ?_, rfl⟩
    show _ ∈ (Diagnostics.ofSeverity .error (findings script.toList)).take maxDiagnostics
    rw [findings, hfound]
    exact List.mem_cons_self

end Lint

/-! ### Blank scripts -/

theorem Text.not_mem_of_isEmptyLine {t : Text} (ht : t.isEmptyLine = true) {c : Char}
    (hc : isBlank c = false) : c ∉ t := by
  intro hmem
  rw [List.all_eq_true.1 ht c hmem] at hc
  cases hc

theorem Program.headers_of_isEmptyLine {t : Text} (ht : t.isEmptyLine = true) : headers t = [] := by
  have hnone := headers_append_of_not_mem (Text.not_mem_of_isEmptyLine ht (c := 'd') (by decide)) []
  rw [List.append_nil] at hnone
  rw [hnone, headers]

namespace Lint

theorem lineFindings_of_isEmptyLine {lines : List (Nat × Text)}
    (h : ∀ line ∈ lines, line.2.isEmptyLine = true) : lineFindings lines = [] := by
  induction lines with
  | nil => rfl
  | cons line rest ih =>
      obtain ⟨hline, hrest⟩ := List.forall_mem_cons.1 h
      have htrim : line.2.trim = [] := Text.trim_of_isEmptyLine hline
      have hnames : bareNames line.2 = [] := by
        rw [bareNames, htrim]
        rfl
      have hindent : indentFindings line.2 rest.head? = [] := by
        unfold indentFindings lacksIndent
        rw [htrim]
        cases rest.head? <;> rfl
      rw [lineFindings, hnames, hindent, ih hrest]
      rfl

theorem isEmptyLine_of_mem_numberedLines {t : Text} (ht : t.isEmptyLine = true) {line : Nat × Text}
    (hline : line ∈ t.numberedLines) : line.2.isEmptyLine = true := by
  obtain ⟨i, hi, rfl⟩ := List.mem_mapIdx.1 hline
  have hpiece : t.lines[i].isEmptyLine = true := by
    apply List.all_eq_true.2
    intro c hc
    exact List.all_eq_true.1 ht c (Text.mem_of_mem_pieces (List.getElem_mem hi) hc)
  rwa [← Text.apply_dropReturns (Text.isEmptyLine_concat rfl)] at hpiece

theorem findings_of_isEmptyLine {t : Text} (ht : t.isEmptyLine = true) : findings t = [] := by
  have hentry : entryPointFindings t = [] := by
    rw [entryPointFindings, ht]
    rfl
  have hparentheses : parenthesisFindings t = [] := by
    have hopened : t.count '(' = 0 := List.count_eq_zero.2 (Text.not_mem_of_isEmptyLine ht (by decide))
    have hclosed : t.count ')' = 0 := List.count_eq_zero.2 (Text.not_mem_of_isEmptyLine ht (by decide))
    rw [parenthesisFindings, hopened, hclosed]
    rfl
  have hlines := lineFindings_of_isEmptyLine fun _ => isEmptyLine_of_mem_numberedLines ht
  rw [findings, hentry, hparentheses, hlines]
  rfl

end Lint

/-! ### Runs -/

theorem Program.defines_of_isEmptyLine {script : String} (h : Text.isEmptyLine script.toList = true)
    (name : String) : (Program.parse script).defines name = false := by
  rw [parse, ofText_eq, headers_of_isEmptyLine h]
  rfl

theorem Program.body?_of_not_defines {p : Program} {name : String} (h : p.defines name = false) :
    (Code.ofProgram p).body? name = none := by
  rw [Code.body?_ofProgram, Option.map_eq_none_iff]
  exact Option.not_isSome_iff_eq_none.1 (Bool.eq_false_iff.1 h)

/-- The run of a script without an entry point is over before it starts. -/
theorem runScript_of_not_defines {script : String} (h : (Program.parse script).defines entryPoint = false)
    (world : World) (limit : Nat) :
    runScript script world limit = .error ⟨.noEntryPoint, none, .untouched world⟩ := by
  rcases runScript_eq script world limit with ⟨-, hrun⟩ | ⟨hsome, -⟩
  · exact hrun
  · exact absurd (Program.body?_of_not_defines h) hsome

/-- Nothing that a run does once it is under way fails for want of an entry point. -/
theorem not_defines_of_runScript {script : String} {world : World} {limit : Nat} {failure : Failure}
    (hrun : runScript script world limit = .error failure) (herror : failure.error = .noEntryPoint) :
    (Program.parse script).defines entryPoint = false := by
  rcases runScript_eq script world limit with ⟨hnone, -⟩ | ⟨-, heq⟩
  · exact Program.defines_of_body? hnone
  · rw [heq] at hrun
    cases hend : Machine.run (.ofScript script limit) (.load script world) with
    | ok p =>
        rw [hend] at hrun
        cases hrun
    | error stop =>
        rw [hend] at hrun
        cases hrun
        obtain ⟨l, hrefuses, -, -⟩ :=
          Machine.run_error hend (Nat.zero_le _) (Machine.runsCode_load script world)
        rw [show stop.error = .noEntryPoint from herror] at hrefuses
        exact absurd (RunError.concerns_of_refuses hrefuses).1 id

/-- Checks and runs agree on the entry point. A run fails for want of one exactly if the script is blank or
the errors that a check of it stores say so, and then nothing has been done at all. Nothing is found in a
blank script. -/
theorem noEntryPoint_iff_reported (script : String) (world : World) (limit : Nat) :
    ((∃ failure, runScript script world limit = .error failure ∧ failure.error = .noEntryPoint) ↔
      Text.isEmptyLine script.toList = true ∨ ∃ d ∈ (lintScript script).errors, d.code = .missingMain) ∧
    (Text.isEmptyLine script.toList = true → (lintScript script).isClean = true) ∧
    ∀ failure, runScript script world limit = .error failure → failure.error = .noEntryPoint →
      failure.line = none ∧ failure.reached = ⟨world, [], 0⟩ := by
  refine ⟨?_, fun hblank => ?_, fun failure hrun herror => ?_⟩
  · rw [Lint.missingMain_stored_iff]
    constructor
    · rintro ⟨failure, hrun, herror⟩
      have hnone := not_defines_of_runScript hrun herror
      cases hblank : Text.isEmptyLine script.toList with
      | true => exact .inl rfl
      | false => exact .inr ⟨rfl, hnone⟩
    · intro h
      have hnone : (Program.parse script).defines entryPoint = false := by
        rcases h with hblank | ⟨-, hnone⟩
        · exact Program.defines_of_isEmptyLine hblank entryPoint
        · exact hnone
      exact ⟨_, runScript_of_not_defines hnone world limit, rfl⟩
  · rw [lintScript, Lint.findings_of_isEmptyLine hblank]
    rfl
  · have hnone := not_defines_of_runScript hrun herror
    rw [runScript_of_not_defines hnone] at hrun
    cases hrun
    exact ⟨rfl, rfl⟩

theorem noEntryPoint_iff_reported_blank :
    Text.isEmptyLine " \n\t".toList = true ∧ (lintScript " \n\t").isClean = true ∧
      ∃ failure, runScript " \n\t" .initial 4 = .error failure ∧ failure.error = .noEntryPoint ∧
        failure.line = none ∧ failure.reached = ⟨.initial, [], 0⟩ := by
  have hblank : Text.isEmptyLine " \n\t".toList = true := by decide
  obtain ⟨hiff, hclean, hreached⟩ := noEntryPoint_iff_reported " \n\t" .initial 4
  obtain ⟨failure, hrun, herror⟩ := hiff.2 (.inl hblank)
  exact ⟨hblank, hclean hblank, failure, hrun, herror, hreached failure hrun herror⟩

end GridRobot
