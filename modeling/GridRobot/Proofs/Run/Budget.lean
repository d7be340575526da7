import GridRobot.Proofs.Run.Invariant
import GridRobot.Proofs.Script.Line

/-!
# The budget of a run

The step limit bounds everything a run does. Lines that are passed over, frames that are left and loops
that start over count no step, so it takes the argument of `Machine.turn_decreases` to see that a run
ends at all. What it may use up until then is kept by every turn: each frame on top of the first one and
each entry of the trace has cost a step, and no frame ever goes on behind the end of its block
(`Frame.CursorAt`). Where the block below a line is passed over, the block and what follows it are all the lines
that were left (`Line.block_append_afterBlock`), so no more lines are passed over than there are.
-/

namespace GridRobot

/-- A frame goes on at an index of its block, or at the end of the block. -/
structure Frame.CursorAt (f : Frame) (cursor : Nat) : Prop where
  inRange : cursor ≤ f.body.length
  pending : f.pending = f.body.drop cursor

namespace Frame

theorem cursorAt_zero {f : Frame} (h : f.pending = f.body) : f.CursorAt 0 := ⟨Nat.zero_le _, h⟩

section

variable {f : Frame} {cursor : Nat} (h : f.CursorAt cursor) {l : Line} {rest : List Line}
  (hpending : f.pending = l :: rest)

include h hpending

/-- The line that comes next stands at the cursor. -/
theorem CursorAt.getElem? : f.body[cursor]? = some l := by
  rw [← Nat.add_zero cursor, ← List.getElem?_drop, ← h.pending, hpending, List.getElem?_cons_zero]

theorem CursorAt.next : (f.resume rest).CursorAt (cursor + 1) := by
  obtain ⟨hlt, -⟩ := List.getElem?_eq_some_iff.1 (h.getElem? hpending)
  refine ⟨hlt, ?_⟩
  change rest = f.body.drop (cursor + 1)
  rw [← List.drop_drop, ← h.pending, hpending, List.drop_succ_cons, List.drop_zero]

end

theorem CursorAt.skip {f : Frame} {cursor n : Nat} {rest : List Line} (h : (f.resume rest).CursorAt cursor)
    (hn : n ≤ rest.length) : (f.resume (rest.drop n)).CursorAt (cursor + n) := by
  obtain ⟨hrange, hrest⟩ := h
  change rest = f.body.drop cursor at hrest
  constructor
  · rw [hrest, List.length_drop] at hn
    change cursor ≤ f.body.length at hrange
    change cursor + n ≤ f.body.length
    omega
  · change rest.drop n = f.body.drop (cursor + n)
    rw [hrest, List.drop_drop]

end Frame

/-- What a machine that is running has used up at most. -/
structure Machine.WithinBudget {σ : Type} (limit : Nat) (m : Machine σ) : Prop where
  steps : m.progress.steps ≤ limit
  frames : m.frames.length ≤ m.progress.steps + 1
  history : m.progress.history.length ≤ m.progress.steps
  cursor : ∀ f ∈ m.frames, ∃ cursor, f.CursorAt cursor

theorem Progress.length_history_of_perform {σ : Type} {observe : σ → Entry → σ} {action : Command}
    {p q : Progress σ} (h : p.perform observe action = .ok q) :
    q.history.length = p.history.length + 1 := by
  unfold perform at h
  split at h
  · cases h
    rfl
  · cases h

namespace Setting

variable {σ : Type} {s : Setting σ} {l : Line} {rest : List Line} {p : Progress σ} {v : Visit σ}

theorem length_history_of_visit (h : s.visit l rest p = .ok v) :
    v.progress.history.length ≤ p.history.length + 1 := by
  obtain ⟨q, hahead, hprogress⟩ := (visit_ok h).progress
  rw [← hahead.history]
  rcases hprogress with hprogress | ⟨action, hprogress⟩
  · rw [hprogress]
    omega
  · exact Nat.le_of_eq (Progress.length_history_of_perform hprogress)

theorem cursorAt_zero_of_visit (h : s.visit l rest p = .ok v) {f : Frame} (hf : f ∈ v.entered.toList) :
    f.CursorAt 0 :=
  Frame.cursorAt_zero ((visit_ok h).entered f (Option.mem_toList.1 hf)).1

theorem exists_resume_eq_drop (h : s.visit l rest p = .ok v) : ∃ n ≤ rest.length, v.resume = rest.drop n :=
  ⟨_, Nat.sub_le _ _, List.suffix_iff_eq_drop.1 (visit_ok h).resume⟩

end Setting

namespace Machine

variable {σ : Type} {s : Setting σ}

theorem withinBudget_of_turn {m m' : Machine σ} (hm : m.WithinBudget s.limit)
    (hturn : m.turn s = .running m') : m'.WithinBudget s.limit := by
  have hsteps := steps_le_limit_of_turn hm.steps hturn
  obtain ⟨-, hframes, hhistory, hcursor⟩ := hm
  have hcases := turn_cases hturn
  generalize m.frames = frames at hcases hframes hcursor
  cases hcases with
  | repeated =>
      refine ⟨hsteps, hframes, hhistory, fun g hg => ?_⟩
      rcases List.mem_cons.1 hg with rfl | hg
      · exact ⟨0, Frame.cursorAt_zero rfl⟩
      · exact hcursor g (List.mem_cons_of_mem _ hg)
  | left =>
      rw [List.length_cons] at hframes
      exact ⟨hsteps, Nat.le_of_succ_le hframes, hhistory, fun g hg =>
        hcursor g (List.mem_cons_of_mem _ hg)⟩
  | @passed f below l rest hpending =>
      refine ⟨hsteps, hframes, hhistory, fun g hg => ?_⟩
      rcases List.mem_cons.1 hg with rfl | hg
      · obtain ⟨cursor, hf⟩ := hcursor f List.mem_cons_self
        exact ⟨cursor + 1, hf.next hpending⟩
      · exact hcursor g (List.mem_cons_of_mem _ hg)
  | @visited f below l rest v hpending _ hvisit =>
      have hcounted := (Setting.steps_visit hvisit).1
      have hentries := Setting.length_history_of_visit hvisit
      have hentered : v.entered.toList.length ≤ 1 := by cases v.entered <;> simp
      refine ⟨hsteps, ?_, ?_, fun g hg => ?_⟩
      · simp only [List.length_append, List.length_cons] at hframes ⊢
        omega
      · simp only
        omega
      · rcases List.mem_append.1 hg with hg | hg
        · exact ⟨0, Setting.cursorAt_zero_of_visit hvisit hg⟩
        · rcases List.mem_cons.1 hg with rfl | hg
          · obtain ⟨cursor, hf⟩ := hcursor f List.mem_cons_self
            obtain ⟨n, hn, hresume⟩ := Setting.exists_resume_eq_drop hvisit
            rw [hresume]
            exact ⟨cursor + 1 + n, (hf.next hpending).skip hn⟩
          · exact hcursor g (List.mem_cons_of_mem _ hg)

theorem withinBudget_load (script : String) (world : World) (limit : Nat) :
    (load script world).WithinBudget limit := by
  refine ⟨Nat.zero_le _, ?_, Nat.le_refl _, fun f hf => ?_⟩
  · simp only [load, List.length_map]
    cases (Code.ofProgram (Program.parse script)).body? entryPoint <;> simp
  · obtain ⟨body, -, rfl⟩ := List.mem_map.1 hf
    exact ⟨0, Frame.cursorAt_zero rfl⟩

/-- Nothing but the step limit ends a run beyond the limit. -/
theorem steps_of_refuses {l : Line} {p : Progress σ} {error : RunError} (h : s.Refuses l p error) :
    p.steps ≤ s.limit + 1 ∧ (p.steps = s.limit + 1 ↔ error = .stepLimit s.limit) := by
  cases h with
  | limit _ hsteps => exact ⟨Nat.le_of_eq hsteps, by simp [hsteps]⟩
  | condition hsteps | loop hsteps | name hsteps =>
      refine ⟨by omega, fun h => ?_, fun h => by cases h⟩
      omega
  | action hsteps _ _ herror =>
      refine ⟨by omega, fun h => by omega, fun h => ?_⟩
      rcases Command.apply_error herror with ⟨-, he⟩ | ⟨-, he⟩ | ⟨-, he⟩
      all_goals
        rw [he] at h
        cases h

end Machine

/-- What a run that has ended used up. It has counted one line more than the limit allows if and only if
it failed for that. -/
def RunResult.WithinBudget (limit : Nat) (result : RunResult) : Prop :=
  (reached result).steps ≤ limit + 1 ∧ (reached result).trace.length ≤ (reached result).steps ∧
    match result with
    | .ok outcome => outcome.steps ≤ limit
    | .error failure => failure.reached.steps = limit + 1 ↔ failure.error = .stepLimit limit

theorem RunResult.withinBudget_of_endsIn {σ : Type} {s : Setting σ} {last : Machine σ}
    {result : Except (Stop σ) (Progress σ)} (hlast : last.WithinBudget s.limit)
    (hends : last.EndsIn s result) : WithinBudget s.limit (.ofEnd result) := by
  have hsteps := hlast.steps
  have hhistory := hlast.history
  rcases hends with ⟨-, rfl⟩ | ⟨stop, hstopped, rfl⟩
  · refine ⟨Nat.le_succ_of_le hsteps, ?_, hsteps⟩
    change last.progress.history.reverse.length ≤ last.progress.steps
    rw [List.length_reverse]
    exact hhistory
  · obtain ⟨l, hrefuses, -, hahead⟩ := Machine.stopsAt_of_turn hsteps hstopped
    obtain ⟨hle, hiff⟩ := Machine.steps_of_refuses hrefuses
    refine ⟨hle, ?_, hiff⟩
    have hcounted := hahead.steps
    change stop.progress.history.reverse.length ≤ stop.progress.steps
    rw [List.length_reverse, hahead.history]
    omega

/-- Every run of a script ends and stays within its budget: the machine takes a finite number of turns,
all of them within the limit, and the last one decides the result. Each frame goes on at an index of its block, and
no block that is passed over is cut short by the end of the lines. The steps of the result exceed the limit by one at
most, so a limit below the greatest 64-bit word never makes the count leave 64 bits. -/
theorem runScript_ends_within_budget (script : String) (world : World) (limit : Nat) :
    (∃ n last, (Machine.load script world).after (.ofScript script limit) n = some last ∧
      (∀ k, ((Machine.load script world).after (.ofScript script limit) k).isSome = true ↔ k ≤ n) ∧
      last.EndsIn (.ofScript script limit)
        (Machine.run (.ofScript script limit) (.load script world))) ∧
    (∀ k m, (Machine.load script world).after (.ofScript script limit) k = some m →
      m.WithinBudget limit) ∧
    (∀ lines, Line.block lines ++ Line.afterBlock lines = lines) ∧
    RunResult.WithinBudget limit (runScript script world limit) ∧
    (limit < UInt64.size - 1 → (RunResult.reached (runScript script world limit)).steps < UInt64.size) := by
  have hafter : ∀ k m, (Machine.load script world).after (.ofScript script limit) k = some m →
      m.WithinBudget limit := fun k m hm =>
    Machine.invariant_after (fun m m' hm hturn => Machine.withinBudget_of_turn hm hturn)
      (Machine.withinBudget_load script world limit) hm
  have hends := Machine.run_ends (.ofScript script limit) (.load script world)
  have hresult : RunResult.WithinBudget limit (runScript script world limit) := by
    rcases runScript_eq script world limit with ⟨-, hrun⟩ | ⟨-, hrun⟩
    · rw [hrun]
      exact ⟨Nat.zero_le _, Nat.le_refl _, fun h => (by cases h), fun h => (by cases h)⟩
    · obtain ⟨n, last, hlast, -, hlastEnds⟩ := hends
      rw [hrun]
      exact RunResult.withinBudget_of_endsIn (s := .ofScript script limit) (hafter n last hlast)
        hlastEnds
  refine ⟨hends, hafter, Line.block_append_afterBlock, hresult, fun hlimit => ?_⟩
  have hsteps := hresult.1
  omega

end GridRobot
