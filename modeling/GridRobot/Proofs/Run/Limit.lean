import GridRobot.Proofs.Run.Invariant

/-!
# The step limit only cuts runs off

Two runs of a script under different limits go through the same states until the smaller limit is used
up. The limit is asked for in one place only, where a line is counted, so the comparison is made there
and carried upwards: `Cuts` relates what a computation comes to under the smaller limit to what it comes to
under the greater, and `Cuts.bind` puts two such computations one after the other. Clauses of a chain,
visits and whole runs are put together from these two facts.

The one thing besides that a limit is good for is to be mentioned in the error of an empty loop. `under`
replaces the limit mentioned there.
-/

namespace GridRobot

/-- The error with the limit that an empty loop mentions replaced. -/
def RunError.under (limit : Nat) : RunError → RunError
  | .emptyLoop _ => .emptyLoop limit
  | error => error

def Failure.under (limit : Nat) (failure : Failure) : Failure :=
  { failure with error := failure.error.under limit }

def RunResult.under (limit : Nat) (result : RunResult) : RunResult := result.mapError (Failure.under limit)

/-- Whether a run failed for having counted too many lines. -/
def RunResult.CutOff (result : RunResult) : Prop :=
  ∃ failure limit, result = .error failure ∧ failure.error = .stepLimit limit

section Computations

variable {σ α β : Type}

def Stop.under (limit : Nat) (stop : Stop σ) : Stop σ := { stop with error := stop.error.under limit }

/-- Time only adds to the count and to the history. -/
structure Progress.Grows (p q : Progress σ) : Prop where
  steps : p.steps ≤ q.steps
  history : p.history <:+ q.history

namespace Progress.Grows

theorem refl (p : Progress σ) : p.Grows p := ⟨Nat.le_refl _, List.suffix_refl _⟩

theorem trans {p q r : Progress σ} (h : p.Grows q) (h' : q.Grows r) : p.Grows r :=
  ⟨Nat.le_trans h.steps h'.steps, h.history.trans h'.history⟩

theorem bind {p : Progress σ} {final : α → Progress σ} {final' : β → Progress σ}
    {x : Except (Stop σ) α} {f : α → Except (Stop σ) β} (hx : p.Grows (ending final x))
    (hf : ∀ a, x = .ok a → (final a).Grows (ending final' (f a))) :
    p.Grows (ending final' (x >>= f)) := by
  cases x with
  | error stop => exact hx
  | ok a => exact hx.trans (hf a rfl)

end Progress.Grows

/-- What a computation comes to under a limit, and what it comes to under a greater one. Either the
limit was enough, or the computation was stopped at the first line too many, from where the one under
the greater limit went on. -/
inductive Cuts (limit : Nat) (final : α → Progress σ) :
    Except (Stop σ) α → Except (Stop σ) α → Prop where
  | kept {part full : Except (Stop σ) α} (hpart : part = full.mapError (Stop.under limit))
      (hsteps : (ending final full).steps ≤ limit) : Cuts limit final part full
  | cut {full : Except (Stop σ) α} {q : Progress σ} (hq : q.steps = limit + 1)
      (hgrows : q.Grows (ending final full)) : Cuts limit final (.error ⟨.stepLimit limit, q⟩) full

theorem Cuts.bind {limit : Nat} {final : α → Progress σ} {final' : β → Progress σ}
    {x x' : Except (Stop σ) α} {f f' : α → Except (Stop σ) β} (hx : Cuts limit final x x')
    (hgrows : ∀ a, x' = .ok a → (final a).Grows (ending final' (f' a)))
    (hf : ∀ a, x' = .ok a → (final a).steps ≤ limit → Cuts limit final' (f a) (f' a)) :
    Cuts limit final' (x >>= f) (x' >>= f') := by
  cases hx with
  | kept hpart hsteps =>
      subst hpart
      cases x' with
      | error stop => exact .kept rfl hsteps
      | ok a => exact hf a rfl hsteps
  | cut hq hcut => exact .cut hq (hcut.bind hgrows)

end Computations

/-! ### Lines and chains -/

namespace Progress

variable {σ : Type}

theorem grows_count (p : Progress σ) (number : Nat) : p.Grows (p.count number) :=
  ⟨Nat.le_succ _, List.suffix_refl _⟩

theorem grows_visit (p : Progress σ) (limit number : Nat) :
    p.Grows (ending id (p.visit limit number)) := by
  unfold visit
  split
  · exact p.grows_count number
  · exact p.grows_count number

theorem grows_perform (p : Progress σ) (observe : σ → Entry → σ) (action : Command) :
    p.Grows (ending id (p.perform observe action)) := by
  unfold perform
  split
  · exact ⟨Nat.le_refl _, List.suffix_cons _ _⟩
  · exact .refl p

theorem cuts_visit {limit limit' : Nat} {p : Progress σ} (hle : limit ≤ limit') (hp : p.steps ≤ limit)
    (number : Nat) : Cuts limit id (p.visit limit number) (p.visit limit' number) := by
  by_cases hlast : limit < p.steps + 1
  · have hsteps : (p.count number).steps = limit + 1 := by
      change p.steps + 1 = limit + 1
      omega
    have hcut : p.visit limit number = .error ⟨.stepLimit limit, p.count number⟩ := if_pos hlast
    rw [hcut]
    refine .cut hsteps ?_
    unfold visit
    split
    · exact .refl _
    · exact .refl _
  · have hkept : p.visit limit number = .ok (p.count number) := if_neg hlast
    have hfull : p.visit limit' number = .ok (p.count number) := if_neg (by omega)
    rw [hkept, hfull]
    exact .kept rfl (Nat.le_of_not_lt hlast)

theorem grows_resolve (p : Progress σ) (number : Nat) (condition : String) :
    p.Grows (ending (fun _ => p) (p.resolve number condition)) := by
  unfold resolve
  split
  · exact .refl p
  · exact .refl p

theorem cuts_resolve {limit : Nat} {p : Progress σ} (hp : p.steps ≤ limit) (number : Nat)
    (condition : String) :
    Cuts limit (fun _ => p) (p.resolve number condition) (p.resolve number condition) := by
  unfold resolve
  split
  · exact .kept rfl hp
  · exact .kept rfl hp

end Progress

namespace Clause

variable {σ : Type}

theorem cuts_applies {limit : Nat} {p : Progress σ} (hp : p.steps ≤ limit) (c : Clause) :
    Cuts limit (fun _ => p) (c.applies p) (c.applies p) := by
  cases happlies : c.applies p with
  | ok applies => exact .kept rfl hp
  | error stop =>
      obtain ⟨condition, -, -, rfl⟩ := applies_error happlies
      exact .kept rfl hp

theorem grows_applies (p : Progress σ) (c : Clause) : p.Grows (ending (fun _ => p) (c.applies p)) := by
  cases happlies : c.applies p with
  | ok applies => exact .refl p
  | error stop =>
      obtain ⟨condition, -, -, rfl⟩ := applies_error happlies
      exact .refl p

theorem grows_choose (limit : Nat) (cs : List Clause) (chosen : Option (List Line)) (p : Progress σ) :
    p.Grows (ending Prod.snd (choose limit cs chosen p)) := by
  induction cs generalizing chosen p with
  | nil => exact .refl p
  | cons c cs ih =>
      rw [choose]
      apply (p.grows_visit limit c.number).bind
      intro q _
      cases chosen with
      | some body => exact ih (some body) q
      | none =>
          apply (grows_applies q c).bind
          intro applies _
          exact ih _ q

theorem cuts_choose {limit limit' : Nat} (hle : limit ≤ limit') (cs : List Clause)
    (chosen : Option (List Line)) {p : Progress σ} (hp : p.steps ≤ limit) :
    Cuts limit Prod.snd (choose limit cs chosen p) (choose limit' cs chosen p) := by
  induction cs generalizing chosen p with
  | nil => exact .kept rfl hp
  | cons c cs ih =>
      rw [choose, choose]
      apply (Progress.cuts_visit hle hp c.number).bind
      · intro q _
        cases chosen with
        | some body => exact grows_choose limit' cs (some body) q
        | none =>
            apply (grows_applies q c).bind
            intro applies _
            exact grows_choose limit' cs _ q
      · intro q _ hq
        cases chosen with
        | some body => exact ih (some body) hq
        | none =>
            apply (cuts_applies hq c).bind
            · intro applies _
              exact grows_choose limit' cs _ q
            · intro applies _ _
              exact ih _ hq

end Clause

/-! ### Visits -/

namespace Setting

variable {σ : Type}

/-- The same setting under another limit. -/
def withLimit (s : Setting σ) (limit : Nat) : Setting σ := { s with limit }

/-- What is done about a line that has been counted. -/
def carryOut (s : Setting σ) (l : Line) (rest : List Line) (p : Progress σ) :
    Except (Stop σ) (Visit σ) :=
  match l.statement with
  | .whileLoop condition => s.enterLoop l rest condition p
  | .ifBranch condition => s.enterBranch l rest condition p
  | .call name => s.enterCall l rest name p
  | _ => .ok ⟨p, rest, none⟩

theorem visit_eq_carryOut (s : Setting σ) (l : Line) (rest : List Line) (p : Progress σ) :
    s.visit l rest p = p.visit s.limit l.number >>= s.carryOut l rest := rfl

/-- A loop counts nothing by itself. -/
theorem ending_enterLoop (s : Setting σ) (l : Line) (rest : List Line) (condition : String)
    (p : Progress σ) : ending Visit.progress (s.enterLoop l rest condition p) = p := by
  unfold enterLoop Progress.resolve
  cases Condition.ofName? condition with
  | none => rfl
  | some c =>
      change ending Visit.progress (if c.holds p.world then _ else _) = p
      split
      · split
        · rfl
        · rfl
      · rfl

theorem grows_enterBranch (s : Setting σ) (l : Line) (rest : List Line) (condition : String)
    (p : Progress σ) : p.Grows (ending Visit.progress (s.enterBranch l rest condition p)) := by
  apply (p.grows_resolve l.number condition).bind
  intro c _
  apply (Clause.grows_choose s.limit _ _ p).bind
  intro chosen _
  exact .refl _

theorem grows_enterCall (s : Setting σ) (l : Line) (rest : List Line) (name : String)
    (p : Progress σ) : p.Grows (ending Visit.progress (s.enterCall l rest name p)) := by
  unfold enterCall
  split
  · next action _ =>
      have hgrows := p.grows_perform s.observe action
      cases hperform : p.perform s.observe action with
      | ok q =>
          rw [hperform] at hgrows
          exact hgrows
      | error stop =>
          rw [hperform] at hgrows
          exact hgrows
  · split
    · exact .refl p
    · split
      · exact .refl p
      · exact .refl p

theorem grows_carryOut (s : Setting σ) (l : Line) (rest : List Line) (p : Progress σ) :
    p.Grows (ending Visit.progress (s.carryOut l rest p)) := by
  unfold carryOut
  split
  · rw [ending_enterLoop]
    exact .refl p
  · exact s.grows_enterBranch l rest _ p
  · exact s.grows_enterCall l rest _ p
  · exact .refl p

theorem grows_visit (s : Setting σ) (l : Line) (rest : List Line) (p : Progress σ) :
    p.Grows (ending Visit.progress (s.visit l rest p)) := by
  rw [visit_eq_carryOut]
  apply (p.grows_visit s.limit l.number).bind
  intro q _
  exact s.grows_carryOut l rest q

section Limits

variable {s : Setting σ} {limit : Nat} {p : Progress σ}

theorem cuts_enterLoop (hp : p.steps ≤ limit) (l : Line) (rest : List Line) (condition : String) :
    Cuts limit Visit.progress ((s.withLimit limit).enterLoop l rest condition p)
      (s.enterLoop l rest condition p) := by
  refine .kept ?_ ((s.ending_enterLoop l rest condition p).symm ▸ hp)
  unfold enterLoop Progress.resolve
  cases Condition.ofName? condition with
  | none => rfl
  | some c =>
      change (if c.holds p.world then _ else _) = Except.mapError _ (if c.holds p.world then _ else _)
      split
      · split
        · rfl
        · rfl
      · rfl

theorem cuts_enterBranch (hle : limit ≤ s.limit) (hp : p.steps ≤ limit) (l : Line) (rest : List Line)
    (condition : String) :
    Cuts limit Visit.progress ((s.withLimit limit).enterBranch l rest condition p)
      (s.enterBranch l rest condition p) := by
  apply (Progress.cuts_resolve hp l.number condition).bind
  · intro c _
    apply (Clause.grows_choose s.limit _ _ p).bind
    intro chosen _
    exact .refl _
  · intro c _ _
    apply (Clause.cuts_choose hle _ _ hp).bind
    · intro chosen _
      exact .refl _
    · intro chosen _ hsteps
      exact .kept rfl hsteps

/-- A call that fails has counted nothing and mentions no limit. -/
theorem under_of_enterCall {l : Line} {rest : List Line} {name : String} {stop : Stop σ}
    (h : s.enterCall l rest name p = .error stop) (other : Nat) :
    stop.progress = p ∧ stop.error.under other = stop.error := by
  unfold enterCall at h
  split at h
  · next action _ =>
      cases hperform : p.perform s.observe action with
      | ok q =>
          rw [hperform] at h
          cases h
      | error stop' =>
          rw [hperform] at h
          cases h
          obtain ⟨hprogress, herror⟩ := Progress.apply_eq_error_of_perform hperform
          refine ⟨hprogress, ?_⟩
          rcases Command.apply_error herror with ⟨-, he⟩ | ⟨-, he⟩ | ⟨-, he⟩
          all_goals
            rw [he]
            rfl
  · split at h
    · cases h
    · split at h
      · cases h
      · cases h
        exact ⟨rfl, rfl⟩

theorem cuts_enterCall (hp : p.steps ≤ limit) (l : Line) (rest : List Line) (name : String) :
    Cuts limit Visit.progress ((s.withLimit limit).enterCall l rest name p)
      (s.enterCall l rest name p) := by
  change Cuts limit Visit.progress (s.enterCall l rest name p) (s.enterCall l rest name p)
  cases hcall : s.enterCall l rest name p with
  | ok v =>
      refine .kept rfl ?_
      show v.progress.steps ≤ limit
      rw [steps_enterCall hcall]
      exact hp
  | error stop =>
      obtain ⟨hprogress, hunder⟩ := under_of_enterCall hcall limit
      apply Cuts.kept
      · show Except.error stop = Except.error (stop.under limit)
        rw [Stop.under, hunder]
      · show stop.progress.steps ≤ limit
        rw [hprogress]
        exact hp

theorem cuts_visit (hle : limit ≤ s.limit) (hp : p.steps ≤ limit) (l : Line) (rest : List Line) :
    Cuts limit Visit.progress ((s.withLimit limit).visit l rest p) (s.visit l rest p) := by
  rw [visit_eq_carryOut, visit_eq_carryOut]
  apply (Progress.cuts_visit hle hp l.number).bind
  · intro q _
    exact s.grows_carryOut l rest q
  · intro q _ hq
    unfold carryOut
    split
    · exact cuts_enterLoop hq l rest _
    · exact cuts_enterBranch hle hq l rest _
    · exact cuts_enterCall hq l rest _
    · exact .kept rfl hq

end Limits

end Setting

/-! ### Runs -/

namespace Machine

variable {σ : Type}

/-- Of the setting, a turn depends on no more than on how a line is visited. -/
theorem turn_uniform (m : Machine σ) :
    (∀ s : Setting σ, m.turn s = .finished) ∨
    (∃ frames, ∀ s : Setting σ, m.turn s = .running ⟨m.progress, frames⟩) ∨
    ∃ (l : Line) (rest : List Line) (frames : Visit σ → List Frame), ∀ s : Setting σ,
      m.turn s = match s.visit l rest m.progress with
        | .ok v => .running ⟨v.progress, frames v⟩
        | .error stop => .stopped stop := by
  obtain ⟨p, frames⟩ := m
  cases frames with
  | nil => exact .inl fun _ => rfl
  | cons f below =>
      unfold turn
      dsimp only
      cases f.pending with
      | nil =>
          refine .inr (.inl ?_)
          dsimp only
          split
          · exact ⟨_, fun _ => rfl⟩
          · exact ⟨_, fun _ => rfl⟩
      | cons l rest =>
          dsimp only
          split
          · exact .inr (.inr ⟨l, rest, fun v => v.entered.toList ++ f.resume v.resume :: below, fun _ => rfl⟩)
          · exact .inr (.inl ⟨_, fun _ => rfl⟩)

/-- Turns come to an end, so what holds of a machine whenever it holds one turn later holds of all. -/
theorem turn_induction (s : Setting σ) {P : Machine σ → Prop}
    (hturn : ∀ m, (∀ m', m.turn s = .running m' → P m') → P m) (m : Machine σ) : P m := by
  induction m using run.induct s with
  | case1 m hfinished => exact hturn m fun m' hm' => by simp [hfinished] at hm'
  | case2 m stop hstopped => exact hturn m fun m' hm' => by simp [hstopped] at hm'
  | case3 m m' hrunning ih =>
      apply hturn m
      intro m'' hm''
      rw [hrunning] at hm''
      cases hm''
      exact ih

theorem run_of_running {s : Setting σ} {m m' : Machine σ} (hturn : m.turn s = .running m') :
    run s m = run s m' := by
  rw [run, hturn]

theorem run_of_visit {s : Setting σ} {m : Machine σ} {l : Line} {rest : List Line}
    {frames : Visit σ → List Frame} (hturn : m.turn s = match s.visit l rest m.progress with
      | .ok v => .running ⟨v.progress, frames v⟩
      | .error stop => .stopped stop) :
    run s m = s.visit l rest m.progress >>= fun v => run s ⟨v.progress, frames v⟩ := by
  rw [run, hturn]
  cases s.visit l rest m.progress with
  | ok v => rfl
  | error stop => rfl

theorem grows_run (s : Setting σ) (m : Machine σ) : m.progress.Grows (ending id (run s m)) := by
  induction m using turn_induction s with
  | hturn m ih =>
      rcases m.turn_uniform with hturn | ⟨frames, hturn⟩ | ⟨l, rest, frames, hturn⟩
      · rw [run, hturn s]
        exact .refl _
      · rw [run_of_running (hturn s)]
        exact ih _ (hturn s)
      · rw [run_of_visit (hturn s)]
        apply (s.grows_visit l rest m.progress).bind
        intro v hv
        apply ih ⟨v.progress, frames v⟩
        rw [hturn s, hv]

theorem cuts_run {s : Setting σ} {limit : Nat} (hle : limit ≤ s.limit) (m : Machine σ)
    (hm : m.progress.steps ≤ limit) : Cuts limit id (run (s.withLimit limit) m) (run s m) := by
  induction m using turn_induction s with
  | hturn m ih =>
      rcases m.turn_uniform with hturn | ⟨frames, hturn⟩ | ⟨l, rest, frames, hturn⟩
      · rw [run, hturn, run, hturn]
        exact .kept rfl hm
      · rw [run_of_running (hturn _), run_of_running (hturn s)]
        exact ih _ (hturn s) hm
      · rw [run_of_visit (hturn _), run_of_visit (hturn s)]
        apply (Setting.cuts_visit hle hm l rest).bind
        · intro v _
          exact grows_run s ⟨v.progress, frames v⟩
        · intro v hv hsteps
          apply ih _ _ hsteps
          rw [hturn s, hv]

end Machine

/-! ### Scripts -/

theorem RunResult.under_ofEnd {σ : Type} (limit : Nat) (result : Except (Stop σ) (Progress σ)) :
    under limit (.ofEnd result) = .ofEnd (result.mapError (Stop.under limit)) := by
  cases result with
  | ok p => rfl
  | error stop => rfl

theorem RunResult.reached_ofEnd {σ : Type} (result : Except (Stop σ) (Progress σ)) :
    reached (.ofEnd result) = .ofProgress (ending id result) := by
  cases result with
  | ok p => rfl
  | error stop => rfl

theorem RunResult.reached_under (limit : Nat) (result : RunResult) :
    reached (under limit result) = reached result := by
  cases result with
  | ok outcome => rfl
  | error failure => rfl

/-- What a run under a limit has to do with the run of the same script under a greater one. -/
theorem runScript_of_le (script : String) (world : World) {limit limit' : Nat} (hle : limit ≤ limit') :
    ((RunResult.reached (runScript script world limit')).steps ≤ limit ∧
      runScript script world limit = RunResult.under limit (runScript script world limit')) ∨
    ∃ failure, runScript script world limit = .error failure ∧ failure.error = .stepLimit limit ∧
      failure.reached.steps = limit + 1 ∧
      limit < (RunResult.reached (runScript script world limit')).steps ∧
      failure.reached.trace <+: (RunResult.reached (runScript script world limit')).trace := by
  rcases runScript_eq script world limit with ⟨hnone, hrun⟩ | ⟨hsome, hrun⟩
  · rcases runScript_eq script world limit' with ⟨-, hrun'⟩ | ⟨hsome, -⟩
    · rw [hrun, hrun']
      exact .inl ⟨Nat.zero_le _, rfl⟩
    · exact absurd hnone hsome
  · rcases runScript_eq script world limit' with ⟨hnone, -⟩ | ⟨-, hrun'⟩
    · exact absurd hnone hsome
    · have hcuts := Machine.cuts_run (s := .ofScript script limit') hle (.load script world) (Nat.zero_le _)
      change Cuts limit id (Machine.run (.ofScript script limit) (.load script world)) _ at hcuts
      rw [hrun, hrun', RunResult.reached_ofEnd, RunResult.under_ofEnd]
      generalize Machine.run (.ofScript script limit) (.load script world) = part at hcuts ⊢
      generalize Machine.run (.ofScript script limit') (.load script world) = full at hcuts ⊢
      cases hcuts with
      | kept hpart hsteps =>
          rw [hpart]
          exact .inl ⟨hsteps, rfl⟩
      | @cut _ q hq hgrows =>
          refine .inr ⟨_, rfl, rfl, hq, ?_, List.reverse_prefix.2 hgrows.history⟩
          have hsteps := hgrows.steps
          show limit < (ending id full).steps
          omega

/-- A result mentions no limit but the one it was reached under. -/
theorem under_runScript (script : String) (world : World) (limit : Nat) :
    RunResult.under limit (runScript script world limit) = runScript script world limit := by
  rcases runScript_of_le script world (Nat.le_refl limit) with ⟨-, h⟩ | ⟨failure, hfailure, herror, -⟩
  · exact h.symm
  · rw [hfailure]
    show Except.error (failure.under limit) = Except.error failure
    rw [Failure.under, herror]
    show Except.error { failure with error := .stepLimit limit } = Except.error failure
    rw [← herror]

theorem RunResult.under_under (limit limit' : Nat) (result : RunResult) :
    under limit (under limit' result) = under limit result := by
  cases result with
  | ok outcome => rfl
  | error failure =>
      obtain ⟨error, line, reached⟩ := failure
      cases error <;> rfl

/-- The step limit only truncates. A smaller limit leaves a first part of the trace, and a run that was not
cut off, whatever it came to, comes to the same under every limit that its steps fit in. -/
theorem runScript_limit_only_truncates (script : String) (world : World) {limit limit' : Nat}
    (hle : limit ≤ limit') :
    (RunResult.reached (runScript script world limit)).trace <+:
        (RunResult.reached (runScript script world limit')).trace ∧
      (¬ RunResult.CutOff (runScript script world limit') → ∀ other,
        ((RunResult.reached (runScript script world limit')).steps ≤ other →
          runScript script world other = RunResult.under other (runScript script world limit')) ∧
        (other < (RunResult.reached (runScript script world limit')).steps →
          ∃ failure, runScript script world other = .error failure ∧
            failure.error = .stepLimit other ∧ failure.reached.steps = other + 1)) := by
  constructor
  · rcases runScript_of_le script world hle with ⟨-, hkept⟩ | ⟨failure, hcut, -, -, -, hshorter⟩
    · have hsame := RunResult.reached_under limit (runScript script world limit')
      rw [← hkept] at hsame
      exact hsame ▸ List.prefix_refl _
    · rw [hcut]
      exact hshorter
  · intro hfull other
    rcases Nat.le_total other limit' with hother | hother
    · rcases runScript_of_le script world hother with
        ⟨hsteps, hkept⟩ | ⟨failure, hcut, herror, hcount, hlt, -⟩
      · exact ⟨fun _ => hkept, fun hlt => absurd hsteps (Nat.not_le_of_lt hlt)⟩
      · exact ⟨fun hle => absurd hle (Nat.not_le_of_lt hlt), fun _ => ⟨failure, hcut, herror, hcount⟩⟩
    · rcases runScript_of_le script world hother with ⟨hsteps, hkept⟩ | ⟨failure, hcut, herror, -⟩
      · constructor
        · intro _
          rw [hkept, RunResult.under_under, under_runScript]
        · intro hlt
          rw [hkept, RunResult.reached_under] at hlt
          omega
      · exact absurd ⟨failure, limit', hcut, herror⟩ hfull

theorem runScript_limit_only_truncates_move :
    let script := "def main():move()"
    0 ≤ 4 ∧ (RunResult.reached (runScript script (.ofSize 2 1) 0)).trace <+:
        (RunResult.reached (runScript script (.ofSize 2 1) 4)).trace ∧
      ¬ RunResult.CutOff (runScript script (.ofSize 2 1) 4) ∧
      runScript script (.ofSize 2 1) 1 = RunResult.under 1 (runScript script (.ofSize 2 1) 4) ∧
      ∃ failure, runScript script (.ofSize 2 1) 0 = .error failure ∧
        failure.error = .stepLimit 0 ∧ failure.reached.steps = 1 := by
  intro script
  have hentry : ((Code.ofProgram (Program.parse script)).body? entryPoint).isSome = true := by decide +kernel
  have hends : ((Machine.load script (.ofSize 2 1)).runWithin (.ofScript script 4) 3).any
      (fun result => result.isOk && (ending id result).steps == 1) = true := by decide +kernel
  obtain ⟨result, hrun, htest⟩ := exists_ofEnd_of_runWithin hentry hends
  obtain ⟨hok, hsteps⟩ := Bool.and_eq_true_iff.1 htest
  have hfull : ¬ RunResult.CutOff (runScript script (.ofSize 2 1) 4) := by
    intro ⟨failure, limit, hfailure, _⟩
    rw [hrun] at hfailure
    cases result with
    | ok p => cases hfailure
    | error stop => cases hok
  have hone : (RunResult.reached (runScript script (.ofSize 2 1) 4)).steps = 1 := by
    rw [hrun, RunResult.reached_ofEnd]
    exact beq_iff_eq.1 hsteps
  obtain ⟨htrace, hresult⟩ := runScript_limit_only_truncates script (.ofSize 2 1) (by decide : 0 ≤ 4)
  exact ⟨by decide, htrace, hfull, (hresult hfull 1).1 (by omega), (hresult hfull 0).2 (by omega)⟩

end GridRobot
