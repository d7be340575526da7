import GridRobot.Proofs.Run.Turn
import GridRobot.Proofs.Run.Visit

/-!
# Invariants of runs

Two ways to argue about every run of every script. A property of a world and of the commands that led to
it holds of what a run reaches as soon as it holds at the start and every command that succeeds keeps it
(`runScript_induction`). And a run that fails does so at some line of its code, for one of the reasons of
`Setting.Refuses` (`runScript_error`).
-/

namespace GridRobot

/-- Whether a line belongs to a procedure of the code. -/
def Code.Has (code : Code) (l : Line) : Prop := ∃ name body, code.body? name = some body ∧ l ∈ body

namespace Machine

variable {σ : Type} {s : Setting σ}

/-- Every block that is being run is made of lines of the code. -/
def RunsCode (code : Code) (m : Machine σ) : Prop :=
  ∀ f ∈ m.frames, (∀ l ∈ f.body, code.Has l) ∧ ∀ l ∈ f.pending, code.Has l

theorem runsCode_of_turn {m m' : Machine σ} (hm : m.RunsCode s.code) (hturn : m.turn s = .running m') :
    m'.RunsCode s.code := by
  unfold RunsCode at hm
  have hcases := turn_cases hturn
  generalize m.frames = frames at hcases hm
  cases hcases with
  | @repeated f below =>
      intro g hg
      rcases List.mem_cons.1 hg with rfl | hg
      · have hbody := (hm f List.mem_cons_self).1
        exact ⟨hbody, hbody⟩
      · exact hm g (List.mem_cons_of_mem f hg)
  | @left f below =>
      intro g hg
      exact hm g (List.mem_cons_of_mem f hg)
  | @passed f below l rest hpending =>
      intro g hg
      rcases List.mem_cons.1 hg with rfl | hg
      · obtain ⟨hbody, hlines⟩ := hm f List.mem_cons_self
        rw [hpending] at hlines
        exact ⟨hbody, fun l' hl' => hlines l' (List.mem_cons_of_mem l hl')⟩
      · exact hm g (List.mem_cons_of_mem f hg)
  | @visited f below l rest v hpending _ hvisit =>
      obtain ⟨hbody, hlines⟩ := hm f List.mem_cons_self
      rw [hpending] at hlines
      have hrest : ∀ l' ∈ rest, s.code.Has l' := fun l' hl' => hlines l' (List.mem_cons_of_mem l hl')
      have hvisited := Setting.visit_ok hvisit
      intro g hg
      rcases List.mem_append.1 hg with hg | hg
      · obtain ⟨hpending', hentered⟩ := hvisited.entered g (Option.mem_toList.1 hg)
        have hg' : ∀ l' ∈ g.body, s.code.Has l' := by
          intro l' hl'
          rcases hentered with hinside | ⟨name, hname⟩
          · exact hrest l' (hinside.subset hl')
          · exact ⟨name, g.body, hname, hl'⟩
        exact ⟨hg', hpending' ▸ hg'⟩
      · rcases List.mem_cons.1 hg with rfl | hg
        · exact ⟨hbody, fun l' hl' => hrest l' (hvisited.resume.subset hl')⟩
        · exact hm g (List.mem_cons_of_mem f hg)

theorem runsCode_load (script : String) (world : World) :
    (load script world).RunsCode (Code.ofProgram (Program.parse script)) := by
  intro f hf
  obtain ⟨body, hbody, rfl⟩ := List.mem_map.1 hf
  have hlines : ∀ l ∈ body, (Code.ofProgram (Program.parse script)).Has l := fun l hl =>
    ⟨entryPoint, body, Option.mem_toList.1 hbody, hl⟩
  exact ⟨hlines, hlines⟩

/-- A machine that is running has kept the limit. -/
theorem steps_le_limit_of_turn {m m' : Machine σ} (hm : m.progress.steps ≤ s.limit)
    (hturn : m.turn s = .running m') : m'.progress.steps ≤ s.limit := by
  have hcases := turn_cases hturn
  generalize m.frames = frames at hcases
  cases hcases with
  | repeated | left | passed => exact hm
  | visited _ _ hvisit => exact (Setting.steps_visit hvisit).2

/-- What stops a machine is a line that was still to come. -/
theorem pending_stopsAt_of_turn {m : Machine σ} {stop : Stop σ} (hm : m.progress.steps ≤ s.limit)
    (hturn : m.turn s = .stopped stop) :
    ∃ f ∈ m.frames, ∃ l ∈ f.pending, s.StopsAt l m.progress stop := by
  have hcases := turn_cases hturn
  generalize m.frames = frames at hcases ⊢
  cases hcases with
  | @stopped f below l rest _ hpending hl hvisit =>
      obtain ⟨l', hl', hstop⟩ := Setting.visit_error hvisit hl hm
      exact ⟨f, List.mem_cons_self, l', hpending ▸ hl', hstop⟩

theorem stopsAt_of_turn {m : Machine σ} {stop : Stop σ} (hm : m.progress.steps ≤ s.limit)
    (hturn : m.turn s = .stopped stop) : ∃ l, s.StopsAt l m.progress stop := by
  obtain ⟨f, -, l, -, hstop⟩ := pending_stopsAt_of_turn hm hturn
  exact ⟨l, hstop⟩

/-- What a run reaches has every property of progress that lines and commands keep. -/
theorem run_progress {I : Progress σ → Prop} (hahead : ∀ p q, I p → p.Ahead q → I q)
    (hperform : ∀ p q action, I p → p.perform s.observe action = .ok q → I q) {m : Machine σ}
    (hm : I m.progress) (hlimit : m.progress.steps ≤ s.limit) :
    (∀ p, run s m = .ok p → I p) ∧ ∀ stop, run s m = .error stop → I stop.progress := by
  have hkeeps : ∀ m m' : Machine σ, (I m.progress ∧ m.progress.steps ≤ s.limit) →
      m.turn s = .running m' → I m'.progress ∧ m'.progress.steps ≤ s.limit := by
    intro m m' ⟨hm, hlimit⟩ hturn
    refine ⟨?_, steps_le_limit_of_turn hlimit hturn⟩
    have hcases := turn_cases hturn
    generalize m.frames = frames at hcases
    cases hcases with
    | repeated | left | passed => exact hm
    | visited _ _ hvisit =>
        obtain ⟨q, hq, hprogress⟩ := (Setting.visit_ok hvisit).progress
        rcases hprogress with hprogress | ⟨action, hprogress⟩
        · exact hprogress ▸ hahead _ _ hm hq
        · exact hperform _ _ action (hahead _ _ hm hq) hprogress
  obtain ⟨n, last, hlast, -, hends⟩ := run_ends s m
  obtain ⟨hI, hsteps⟩ := invariant_after hkeeps ⟨hm, hlimit⟩ hlast
  rcases hends with ⟨-, hrun⟩ | ⟨stop, hstopped, hrun⟩
  · rw [hrun]
    refine ⟨fun p hp => ?_, fun stop hstop => by cases hstop⟩
    cases hp
    exact hI
  · rw [hrun]
    refine ⟨fun p hp => (by cases hp), fun stop' hstop => ?_⟩
    cases hstop
    obtain ⟨_, hstop⟩ := stopsAt_of_turn hsteps hstopped
    exact hahead _ _ hI hstop.ahead

/-- A run that fails does so at a line of its code, for a reason. -/
theorem run_error {m : Machine σ} {stop : Stop σ} (hrun : run s m = .error stop)
    (hlimit : m.progress.steps ≤ s.limit) (hcode : m.RunsCode s.code) :
    ∃ l, s.Refuses l stop.progress stop.error ∧ stop.progress.line = some l.number ∧ s.code.Has l := by
  obtain ⟨n, last, hlast, -, hends⟩ := run_ends s m
  have hsteps : last.progress.steps ≤ s.limit :=
    invariant_after (I := fun m => m.progress.steps ≤ s.limit)
      (fun _ _ hm hturn => steps_le_limit_of_turn hm hturn) hlimit hlast
  have hlines : last.RunsCode s.code :=
    invariant_after (fun _ _ hm hturn => runsCode_of_turn hm hturn) hcode hlast
  rcases hends with ⟨-, hok⟩ | ⟨stop', hstopped, herror⟩
  · rw [hok] at hrun
    cases hrun
  · rw [herror] at hrun
    cases hrun
    obtain ⟨f, hf, l, hl, hstop⟩ := pending_stopsAt_of_turn hsteps hstopped
    exact ⟨l, hstop.refuses, hstop.line, (hlines f hf).2 l hl⟩

end Machine

/-- What a run has reached, whether it succeeded or failed. -/
def RunResult.reached : RunResult → Outcome
  | .ok outcome => outcome
  | .error failure => failure.reached

/-- A property of a world and of the entries that led to it holds of what a run reaches, if it holds at
the start and every command that succeeds keeps it. -/
theorem runScript_induction {I : World → List Entry → Prop} {world : World} (hstart : I world [])
    (hcommand : ∀ w entries action w', I w entries → Command.apply w action = .ok w' →
      I w' (entries ++ [⟨action, w'⟩])) (script : String) (limit : Nat) :
    I (RunResult.reached (runScript script world limit)).world
      (RunResult.reached (runScript script world limit)).trace := by
  rcases runScript_eq script world limit with ⟨-, hrun⟩ | ⟨-, hrun⟩
  · rw [hrun]
    exact hstart
  · have hahead : ∀ p q : Progress Unit, I p.world p.history.reverse → p.Ahead q →
        I q.world q.history.reverse := by
      intro p q hp hpq
      rw [hpq.world, hpq.history]
      exact hp
    have hperform : ∀ (p q : Progress Unit) (action : Command), I p.world p.history.reverse →
        p.perform (Setting.ofScript script limit).observe action = .ok q →
        I q.world q.history.reverse := by
      intro p q action hp hq
      unfold Progress.perform at hq
      split at hq
      · next w hw =>
          cases hq
          rw [List.reverse_cons]
          exact hcommand p.world p.history.reverse action w hp hw
      · cases hq
    obtain ⟨hok, herror⟩ := Machine.run_progress (m := Machine.load script world)
      (s := Setting.ofScript script limit) (I := fun p => I p.world p.history.reverse) hahead hperform
      hstart (Nat.zero_le _)
    rw [hrun]
    cases hend : Machine.run (.ofScript script limit) (.load script world) with
    | ok p => exact hok p hend
    | error stop => exact herror stop hend

/-- A script that fails has no entry point, or fails at a line of its code for a reason. -/
theorem runScript_error {script : String} {world : World} {limit : Nat} {failure : Failure}
    (hrun : runScript script world limit = .error failure) :
    failure = ⟨.noEntryPoint, none, .untouched world⟩ ∨
      ∃ (l : Line) (p : Progress Unit), failure = .ofStop ⟨failure.error, p⟩ ∧
        (Setting.ofScript script limit).Refuses l p failure.error ∧ p.line = some l.number ∧
        (Code.ofProgram (Program.parse script)).Has l := by
  rcases runScript_eq script world limit with ⟨-, heq⟩ | ⟨-, heq⟩
  · rw [heq] at hrun
    cases hrun
    exact .inl rfl
  · rw [heq] at hrun
    cases hend : Machine.run (.ofScript script limit) (.load script world) with
    | ok p =>
        rw [hend] at hrun
        cases hrun
    | error stop =>
        rw [hend] at hrun
        cases hrun
        obtain ⟨l, hrefuses, hline, hcode⟩ :=
          Machine.run_error hend (Nat.zero_le _) (Machine.runsCode_load script world)
        exact .inr ⟨l, stop.progress, rfl, hrefuses, hline, hcode⟩

end GridRobot
