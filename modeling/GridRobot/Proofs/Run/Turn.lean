import GridRobot.Run.Outcome

/-!
# The turns of the machine

The six things that a turn can come to, each with what brings it about. Whatever is proved about runs
goes through them: `turn_cases` is the only place where the definition of a turn is opened.

A run is the machine taking one turn after another. `after` is the state that a number of turns leads
to, and `run_ends` ties it to `run`: the turns come to an end, and what the last of them comes to is what
the run comes to. A property of the states of a run is therefore one that the first state has and that
every turn keeps.
-/

namespace GridRobot

/-- What a turn of a machine with a given progress and given frames can come to. -/
inductive Setting.Turns {σ : Type} (s : Setting σ) (p : Progress σ) : List Frame → Turn σ → Prop where
  | done : s.Turns p [] .finished
  | repeated {f : Frame} {below : List Frame} (hpending : f.pending = [])
      (hrepeats : f.repeats p.world = true) :
      s.Turns p (f :: below) (.running ⟨p, f.resume f.body :: below⟩)
  | left {f : Frame} {below : List Frame} (hpending : f.pending = [])
      (hrepeats : f.repeats p.world = false) : s.Turns p (f :: below) (.running ⟨p, below⟩)
  | passed {f : Frame} {below : List Frame} {l : Line} {rest : List Line}
      (hpending : f.pending = l :: rest) (hl : l.isCounted = false) :
      s.Turns p (f :: below) (.running ⟨p, f.resume rest :: below⟩)
  | visited {f : Frame} {below : List Frame} {l : Line} {rest : List Line} {v : Visit σ}
      (hpending : f.pending = l :: rest) (hl : l.isCounted = true) (hvisit : s.visit l rest p = .ok v) :
      s.Turns p (f :: below) (.running ⟨v.progress, v.entered.toList ++ f.resume v.resume :: below⟩)
  | stopped {f : Frame} {below : List Frame} {l : Line} {rest : List Line} {stop : Stop σ}
      (hpending : f.pending = l :: rest) (hl : l.isCounted = true)
      (hvisit : s.visit l rest p = .error stop) : s.Turns p (f :: below) (.stopped stop)

namespace Machine

variable {σ : Type}

theorem turn_of_pending_eq_nil {f : Frame} (h : f.pending = []) (s : Setting σ) (p : Progress σ)
    (below : List Frame) :
    turn s ⟨p, f :: below⟩ =
      if f.repeats p.world then .running ⟨p, f.resume f.body :: below⟩ else .running ⟨p, below⟩ := by
  simp only [turn, h]

theorem turn_of_pending_eq_cons {f : Frame} {l : Line} {rest : List Line} (h : f.pending = l :: rest)
    (s : Setting σ) (p : Progress σ) (below : List Frame) :
    turn s ⟨p, f :: below⟩ =
      if l.isCounted then
        match s.visit l rest p with
        | .ok v => .running ⟨v.progress, v.entered.toList ++ f.resume v.resume :: below⟩
        | .error stop => .stopped stop
      else .running ⟨p, f.resume rest :: below⟩ := by
  obtain ⟨body, pending, again, counts⟩ := f
  cases h
  rfl

theorem turn_cases {s : Setting σ} {m : Machine σ} {t : Turn σ} (h : m.turn s = t) :
    s.Turns m.progress m.frames t := by
  subst h
  unfold turn
  cases m.frames with
  | nil => exact .done
  | cons f below =>
      dsimp only
      split
      · next hpending =>
          split
          · next hrepeats => exact .repeated hpending hrepeats
          · next hrepeats => exact .left hpending (by simpa using hrepeats)
      · next l rest hpending =>
          split
          · next hl =>
              split
              · next v hvisit => exact .visited hpending hl hvisit
              · next stop hvisit => exact .stopped hpending hl hvisit
          · next hl => exact .passed hpending (by simpa using hl)

/-- The state after a number of turns, as long as the machine is running. -/
def after (s : Setting σ) (m : Machine σ) : Nat → Option (Machine σ)
  | 0 => some m
  | n + 1 =>
      match m.turn s with
      | .running m' => m'.after s n
      | _ => none

theorem after_of_running {s : Setting σ} {m m' : Machine σ} (hturn : m.turn s = .running m') (n : Nat) :
    m.after s (n + 1) = m'.after s n := by
  rw [after, hturn]

/-- What every turn keeps holds after any number of turns. -/
theorem invariant_after {s : Setting σ} {I : Machine σ → Prop}
    (hturn : ∀ m m', I m → m.turn s = .running m' → I m') {m m' : Machine σ} {n : Nat} (hm : I m)
    (h : m.after s n = some m') : I m' := by
  induction n generalizing m with
  | zero =>
      cases h
      exact hm
  | succ n ih =>
      rw [after] at h
      split at h
      · next m'' hrunning => exact ih (hturn m m'' hm hrunning) h
      · cases h

/-- The turn that ends a run, and what the run then comes to. -/
def EndsIn (s : Setting σ) (last : Machine σ) (result : Except (Stop σ) (Progress σ)) : Prop :=
  (last.turn s = .finished ∧ result = .ok last.progress) ∨
    ∃ stop, last.turn s = .stopped stop ∧ result = .error stop

/-- A machine takes a finite number of turns, and the last one decides what the run comes to. -/
theorem run_ends (s : Setting σ) (m : Machine σ) :
    ∃ n last, m.after s n = some last ∧ (∀ k, (m.after s k).isSome = true ↔ k ≤ n) ∧
      last.EndsIn s (run s m) := by
  induction m using run.induct s with
  | case1 m hfinished =>
      refine ⟨0, m, rfl, fun k => ?_, .inl ⟨hfinished, ?_⟩⟩
      · cases k with
        | zero => simp [after]
        | succ k => simp [after, hfinished]
      · rw [run, hfinished]
  | case2 m stop hstopped =>
      refine ⟨0, m, rfl, fun k => ?_, .inr ⟨stop, hstopped, ?_⟩⟩
      · cases k with
        | zero => simp [after]
        | succ k => simp [after, hstopped]
      · rw [run, hstopped]
  | case3 m m' hrunning ih =>
      obtain ⟨n, last, hlast, hcount, hends⟩ := ih
      refine ⟨n + 1, last, ?_, fun k => ?_, ?_⟩
      · rw [after_of_running hrunning, hlast]
      · cases k with
        | zero => simp [after]
        | succ k => rw [after_of_running hrunning, hcount, Nat.succ_le_succ_iff]
      · rw [run, hrunning]
        exact hends

/-- What a run comes to, if it is over within a number of turns. -/
def runWithin (s : Setting σ) (m : Machine σ) : Nat → Option (Except (Stop σ) (Progress σ))
  | 0 => none
  | n + 1 =>
      match m.turn s with
      | .running m' => m'.runWithin s n
      | .finished => some (.ok m.progress)
      | .stopped stop => some (.error stop)

theorem run_of_runWithin {s : Setting σ} {m : Machine σ} {n : Nat}
    {result : Except (Stop σ) (Progress σ)} (h : m.runWithin s n = some result) : run s m = result := by
  induction n generalizing m with
  | zero => cases h
  | succ n ih =>
      rw [runWithin] at h
      rw [run]
      split at h
      · next m' hturn =>
          rw [hturn]
          exact ih h
      · next hturn =>
          rw [hturn]
          exact Option.some.inj h
      · next stop hturn =>
          rw [hturn]
          exact Option.some.inj h

end Machine

/-- The progress that a computation ends with, well or not. -/
def ending {σ α : Type} (final : α → Progress σ) : Except (Stop σ) α → Progress σ
  | .ok a => final a
  | .error stop => stop.progress

/-! ### Scripts -/

/-- What a run that has ended is reported as. -/
def RunResult.ofEnd {σ : Type} : Except (Stop σ) (Progress σ) → RunResult
  | .ok p => .ok (.ofProgress p)
  | .error stop => .error (.ofStop stop)

/-- The setting in which a script runs when nobody watches. -/
def Setting.ofScript (script : String) (limit : Nat) : Setting Unit :=
  ⟨Code.ofProgram (Program.parse script), limit, fun _ _ => ()⟩

/-- The machine as a script finds it: at its entry point, if it has one. -/
def Machine.load (script : String) (world : World) : Machine Unit :=
  ⟨.start world (), ((Code.ofProgram (Program.parse script)).body? entryPoint).toList.map .once⟩

theorem runScript_eq (script : String) (world : World) (limit : Nat) :
    ((Code.ofProgram (Program.parse script)).body? entryPoint = none ∧
      runScript script world limit = .error ⟨.noEntryPoint, none, .untouched world⟩) ∨
    ((Code.ofProgram (Program.parse script)).body? entryPoint ≠ none ∧
      runScript script world limit =
        .ofEnd (Machine.run (.ofScript script limit) (.load script world))) := by
  unfold runScript Program.run Program.runObserved Setting.ofScript Machine.load
  dsimp only
  cases (Code.ofProgram (Program.parse script)).body? entryPoint with
  | none => exact .inl ⟨rfl, rfl⟩
  | some body =>
      refine .inr ⟨by simp, ?_⟩
      dsimp only [Setting.runBody, Option.toList, List.map]
      cases Machine.run _ _ <;> rfl

/-- What a number of turns tells about a run holds of what the script comes to. -/
theorem exists_ofEnd_of_runWithin {script : String} {world : World} {limit turns : Nat}
    {test : Except (Stop Unit) (Progress Unit) → Bool}
    (hentry : ((Code.ofProgram (Program.parse script)).body? entryPoint).isSome = true)
    (h : ((Machine.load script world).runWithin (.ofScript script limit) turns).any test = true) :
    ∃ result, runScript script world limit = .ofEnd result ∧ test result = true := by
  obtain ⟨result, hresult, htest⟩ := (Option.any_eq_true _ _).1 h
  refine ⟨result, ?_, htest⟩
  rcases runScript_eq script world limit with ⟨hnone, -⟩ | ⟨-, hrun⟩
  · rw [hnone] at hentry
    cases hentry
  · rw [hrun, Machine.run_of_runWithin hresult]

end GridRobot
