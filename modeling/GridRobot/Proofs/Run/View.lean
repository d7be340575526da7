import GridRobot.Proofs.Run.Limit
import GridRobot.Proofs.Run.Replay

/-!
# Runs seen through a view

A view turns worlds into other worlds, and errors along with them. A script learns about its world in two
ways only, by the conditions that it asks for and by what its commands come to. A view with which both go
along therefore turns the run from a world into the run from the world seen (`runScript_view`). The proof
goes through the machine part by part: what a part comes to from a progress that is seen is what it comes
to from the progress itself, seen.

A view may be faithful to some worlds and to some conditions only. Then the worlds have to be such that
commands lead from one to another, and the conditions have to be all that the script asks for.
-/

namespace GridRobot

structure View where
  world : World → World
  error : RunError → RunError

namespace View

variable (v : View) {α β γ δ : Type}

def entry (e : Entry) : Entry := { e with world := v.world e.world }

def progress (p : Progress Unit) : Progress Unit :=
  { p with world := v.world p.world, history := p.history.map v.entry }

def stop (s : Stop Unit) : Stop Unit := ⟨v.error s.error, v.progress s.progress⟩

def visit (x : Visit Unit) : Visit Unit := { x with progress := v.progress x.progress }

def machine (m : Machine Unit) : Machine Unit := { m with progress := v.progress m.progress }

def turn : Turn Unit → Turn Unit
  | .running m => .running (v.machine m)
  | .finished => .finished
  | .stopped s => .stopped (v.stop s)

def outcome (o : Outcome) : Outcome := ⟨v.world o.world, o.trace.map v.entry, o.steps⟩

def failure (f : Failure) : Failure := ⟨v.error f.error, f.line, v.outcome f.reached⟩

def result (r : RunResult) : RunResult := (r.map v.outcome).mapError v.failure

/-- What a command comes to, seen. -/
def applied (x : Except RunError World) : Except RunError World := (x.map v.world).mapError v.error

/-- What a part of a run comes to, seen. -/
def part (see : α → β) (x : Except (Stop Unit) α) : Except (Stop Unit) β := (x.map see).mapError v.stop

theorem part_bind {see : α → β} {see' : γ → δ} {x : Except (Stop Unit) α}
    {next : α → Except (Stop Unit) γ} {next' : β → Except (Stop Unit) δ}
    (h : ∀ a, x = .ok a → next' (see a) = v.part see' (next a)) :
    v.part see x >>= next' = v.part see' (x >>= next) := by
  cases x with
  | error stop => rfl
  | ok a => exact h a rfl

end View

/-- The condition that a line names. -/
def Line.condition? (l : Line) : Option String :=
  match l.statement with
  | .whileLoop condition | .ifBranch condition | .elifBranch condition => some condition
  | _ => none

/-- Whether a name stands for one of the given conditions, if for any. -/
def Condition.Named (asked : Condition → Prop) (name : String) : Prop := ∀ c, ofName? name = some c → asked c

def Line.AsksFor (asked : Condition → Prop) (l : Line) : Prop :=
  ∀ name, l.condition? = some name → Condition.Named asked name

def Code.AsksFor (asked : Condition → Prop) (code : Code) : Prop :=
  ∀ l, code.Has l → l.AsksFor asked

theorem Progress.ofName?_of_resolve {σ : Type} {p : Progress σ} {number : Nat} {condition : String}
    {c : Condition} (h : p.resolve number condition = .ok c) : Condition.ofName? condition = some c := by
  unfold resolve at h
  split at h
  · next found =>
      cases h
      exact found
  · cases h

/-- A block that is to be run again was entered by a `while` line, and it is that line's condition which
is asked again. -/
theorem Setting.again_of_visit {σ : Type} {s : Setting σ} {l : Line} {rest : List Line} {p : Progress σ}
    {x : Visit σ} (h : s.visit l rest p = .ok x) {f : Frame} (hf : x.entered = some f) {c : Condition}
    (hc : f.again = some c) : ∃ name, l.condition? = some name ∧ Condition.ofName? name = some c := by
  rw [visit_eq_carryOut] at h
  obtain ⟨q, -, h⟩ := bind_eq_ok h
  unfold carryOut at h
  split at h
  · next condition hstatement =>
      obtain ⟨found, hfound, h⟩ := bind_eq_ok h
      have hname := Progress.ofName?_of_resolve hfound
      refine ⟨condition, by rw [Line.condition?, hstatement], ?_⟩
      split at h
      · split at h
        · cases h
          cases hf
          cases hc
          exact hname
        · cases h
      · cases h
        cases hf
  · obtain ⟨_, -, h⟩ := bind_eq_ok h
    obtain ⟨⟨chosen, _⟩, -, h⟩ := bind_eq_ok h
    cases h
    obtain ⟨body, -, rfl⟩ := Option.map_eq_some_iff.1 hf
    cases hc
  · unfold enterCall at h
    split at h
    · next action _ =>
        cases hperform : q.perform s.observe action with
        | error stop =>
            rw [hperform] at h
            cases h
        | ok r =>
            rw [hperform] at h
            cases h
            cases hf
    · split at h
      · cases h
        cases hf
        cases hc
      · split at h
        · cases h
          cases hf
        · cases h
  · cases h
    cases hf

/-- A machine that runs lines of the code asks for the given conditions only, also where a loop starts
over. -/
structure Machine.AsksFor {σ : Type} (asked : Condition → Prop) (code : Code) (m : Machine σ) : Prop where
  runs : m.RunsCode code
  again : ∀ f ∈ m.frames, ∀ c, f.again = some c → asked c

/-- A view with which the given conditions and all commands go along, from worlds that are `valid` on. -/
structure View.Faithful (v : View) (valid : World → Prop) (asked : Condition → Prop) : Prop where
  holds : ∀ w c, valid w → asked c → c.holds (v.world w) = c.holds w
  apply : ∀ w (action : Command), valid w → action.apply (v.world w) = v.applied (action.apply w)
  keeps : ∀ w w' (action : Command), valid w → action.apply w = .ok w' → valid w'
  error : ∀ e : RunError, e.command? = none → v.error e = e

namespace View.Faithful

variable {v : View} {valid : World → Prop} {asked : Condition → Prop} (hv : v.Faithful valid asked)
  {p : Progress Unit}

include hv

/-! ### Lines and chains -/

theorem visit_line (limit number : Nat) (p : Progress Unit) :
    (v.progress p).visit limit number = v.part v.progress (p.visit limit number) := by
  unfold Progress.visit
  by_cases hlt : limit < p.steps + 1
  · have hseen : limit < (v.progress p).steps + 1 := hlt
    rw [if_pos hlt, if_pos hseen]
    show Except.error _ = Except.error (v.stop ⟨.stepLimit limit, p.count number⟩)
    rw [View.stop, hv.error (.stepLimit limit) rfl]
    rfl
  · have hseen : ¬ limit < (v.progress p).steps + 1 := hlt
    rw [if_neg hlt, if_neg hseen]
    rfl

theorem resolve (number : Nat) (condition : String) (p : Progress Unit) :
    (v.progress p).resolve number condition = v.part id (p.resolve number condition) := by
  unfold Progress.resolve
  cases Condition.ofName? condition with
  | some c => rfl
  | none =>
      show Except.error _ = Except.error (v.stop ⟨.unknownCondition condition number, p⟩)
      rw [View.stop, hv.error (.unknownCondition condition number) rfl]

theorem perform (observe : Unit → Entry → Unit) (action : Command) (hp : valid p.world) :
    (v.progress p).perform observe action = v.part v.progress (p.perform observe action) := by
  have happly : action.apply (v.progress p).world = v.applied (action.apply p.world) :=
    hv.apply p.world action hp
  unfold Progress.perform
  rw [happly]
  cases action.apply p.world with
  | ok world => rfl
  | error e => rfl

theorem applies {c : Clause} (hp : valid p.world)
    (hc : ∀ name, c.guard = some name → Condition.Named asked name) :
    c.applies (v.progress p) = v.part id (c.applies p) := by
  unfold Clause.applies
  cases hguard : c.guard with
  | none => rfl
  | some name =>
      dsimp only
      rw [hv.resolve c.number name p]
      unfold Progress.resolve
      cases hname : Condition.ofName? name with
      | none => rfl
      | some found =>
          have hholds : found.holds (v.world p.world) = found.holds p.world :=
            hv.holds p.world found hp (hc name hguard found hname)
          exact congrArg Except.ok hholds

theorem choose (limit : Nat) {cs : List Clause} (chosen : Option (List Line)) (hp : valid p.world)
    (hcs : ∀ c ∈ cs, ∀ name, c.guard = some name → Condition.Named asked name) :
    Clause.choose limit cs chosen (v.progress p) =
      v.part (Prod.map id v.progress) (Clause.choose limit cs chosen p) := by
  induction cs generalizing chosen p with
  | nil => rfl
  | cons c cs ih =>
      obtain ⟨hc, hcs⟩ := List.forall_mem_cons.1 hcs
      rw [Clause.choose, Clause.choose, hv.visit_line]
      apply v.part_bind
      intro q hq
      have hvalid : valid q.world := by
        obtain ⟨rfl, -⟩ := Progress.eq_count_of_visit hq
        exact hp
      cases chosen with
      | some body => exact ih (some body) hvalid hcs
      | none =>
          dsimp only
          rw [hv.applies hvalid hc]
          apply v.part_bind
          intro applies _
          exact ih _ hvalid hcs

/-! ### Visits -/

variable {s : Setting Unit} {l : Line} {rest : List Line}

theorem enterLoop {condition : String} (hp : valid p.world) (hl : Condition.Named asked condition) :
    s.enterLoop l rest condition (v.progress p) = v.part v.visit (s.enterLoop l rest condition p) := by
  unfold Setting.enterLoop
  rw [hv.resolve]
  apply v.part_bind
  intro c hc
  have hname := Progress.ofName?_of_resolve hc
  have hholds : c.holds (v.progress p).world = c.holds p.world := hv.holds p.world c hp (hl c hname)
  simp only [id, hholds]
  split
  · split
    · rfl
    · show Except.error _ = Except.error (v.stop ⟨.emptyLoop s.limit, p⟩)
      rw [View.stop, hv.error (.emptyLoop s.limit) rfl]
  · rfl

theorem enterBranch {condition : String} (hp : valid p.world) (hl : Condition.Named asked condition)
    (hrest : ∀ l' ∈ rest, l'.AsksFor asked) :
    s.enterBranch l rest condition (v.progress p) =
      v.part v.visit (s.enterBranch l rest condition p) := by
  unfold Setting.enterBranch
  rw [hv.resolve]
  apply v.part_bind
  intro c hc
  have hname := Progress.ofName?_of_resolve hc
  have hholds : c.holds (v.progress p).world = c.holds p.world := hv.holds p.world c hp (hl c hname)
  have hclauses : ∀ clause ∈ (Clause.chain l.margin? (Line.afterBlock rest)).1,
      ∀ name, clause.guard = some name → Condition.Named asked name := by
    intro clause hclause name hguard
    obtain ⟨⟨l', hl', -, -, hread⟩, -⟩ := Clause.chain_mem hclause
    apply hrest l' ((Line.afterBlock_suffix rest).subset hl') name
    rw [Line.condition?, hread name hguard]
  simp only [id, hholds]
  rw [hv.choose s.limit _ hp hclauses]
  apply v.part_bind
  intro _ _
  rfl

theorem enterCall (name : String) (hp : valid p.world) :
    s.enterCall l rest name (v.progress p) = v.part v.visit (s.enterCall l rest name p) := by
  unfold Setting.enterCall
  cases Command.ofName? name with
  | some action =>
      dsimp only
      rw [hv.perform s.observe action hp]
      cases p.perform s.observe action with
      | ok q => rfl
      | error stop => rfl
  | none =>
      dsimp only
      cases s.code.body? name with
      | some body => rfl
      | none =>
          dsimp only
          split
          · rfl
          · show Except.error _ = Except.error (v.stop ⟨.unknownCommand name l.number, p⟩)
            rw [View.stop, hv.error (.unknownCommand name l.number) rfl]

theorem visit (hp : valid p.world) (hl : l.AsksFor asked)
    (hrest : ∀ l' ∈ rest, l'.AsksFor asked) :
    s.visit l rest (v.progress p) = v.part v.visit (s.visit l rest p) := by
  rw [Setting.visit_eq_carryOut, Setting.visit_eq_carryOut, hv.visit_line]
  apply v.part_bind
  intro q hq
  have hvalid : valid q.world := by
    obtain ⟨rfl, -⟩ := Progress.eq_count_of_visit hq
    exact hp
  unfold Setting.carryOut
  unfold Line.AsksFor Line.condition? at hl
  split
  · next condition hstatement =>
      rw [hstatement] at hl
      exact hv.enterLoop hvalid (hl condition rfl)
  · next condition hstatement =>
      rw [hstatement] at hl
      exact hv.enterBranch hvalid (hl condition rfl) hrest
  · exact hv.enterCall _ hvalid
  · rfl

/-! ### Runs -/

variable {m m' : Machine Unit}

theorem turn (hm : valid m.progress.world) (hasks : m.AsksFor asked s.code)
    (hcode : s.code.AsksFor asked) : (v.machine m).turn s = v.turn (m.turn s) := by
  obtain ⟨p, frames⟩ := m
  cases frames with
  | nil => rfl
  | cons f below =>
      unfold Machine.turn View.machine
      dsimp only
      cases hpending : f.pending with
      | nil =>
          have hrepeats : f.repeats (v.world p.world) = f.repeats p.world := by
            have hagain := hasks.again f List.mem_cons_self
            unfold Frame.repeats
            cases hf : f.again with
            | none => rfl
            | some c => exact hv.holds p.world c hm (hagain c hf)
          simp only [View.progress, hrepeats]
          split
          · rfl
          · rfl
      | cons l rest =>
          have hlines : ∀ l' ∈ l :: rest, l'.AsksFor asked := fun l' hl' =>
            hcode l' ((hasks.runs f List.mem_cons_self).2 l' (hpending ▸ hl'))
          obtain ⟨hl, hrest⟩ := List.forall_mem_cons.1 hlines
          dsimp only
          split
          · rw [hv.visit hm hl hrest]
            cases s.visit l rest p with
            | ok x => rfl
            | error stop => rfl
          · rfl

omit hv in
theorem asksFor_of_turn (hasks : m.AsksFor asked s.code) (hcode : s.code.AsksFor asked)
    (hturn : m.turn s = .running m') : m'.AsksFor asked s.code := by
  obtain ⟨hruns, hagain⟩ := hasks
  refine ⟨Machine.runsCode_of_turn hruns hturn, ?_⟩
  unfold Machine.RunsCode at hruns
  have hcases := Machine.turn_cases hturn
  generalize m.frames = frames at hcases hruns hagain
  cases hcases with
  | @repeated f below | @passed f below =>
      intro g hg
      rcases List.mem_cons.1 hg with rfl | hg
      · exact hagain f List.mem_cons_self
      · exact hagain g (List.mem_cons_of_mem f hg)
  | @left f below => exact fun g hg => hagain g (List.mem_cons_of_mem f hg)
  | @visited f below l rest x hpending _ hvisit =>
      intro g hg c hc
      rcases List.mem_append.1 hg with hg | hg
      · obtain ⟨name, hname, hfound⟩ := Setting.again_of_visit hvisit (Option.mem_toList.1 hg) hc
        have hl : s.code.Has l := (hruns f List.mem_cons_self).2 l (hpending ▸ List.mem_cons_self)
        exact hcode l hl name hname c hfound
      · rcases List.mem_cons.1 hg with rfl | hg
        · exact hagain f List.mem_cons_self c hc
        · exact hagain g (List.mem_cons_of_mem f hg) c hc

theorem valid_of_turn (hm : valid m.progress.world) (hturn : m.turn s = .running m') :
    valid m'.progress.world := by
  have hcases := Machine.turn_cases hturn
  generalize m.frames = frames at hcases
  cases hcases with
  | repeated | left | passed => exact hm
  | visited _ _ hvisit =>
      obtain ⟨q, hahead, hprogress⟩ := (Setting.visit_ok hvisit).progress
      have hq : valid q.world := hahead.world.symm ▸ hm
      rcases hprogress with hprogress | ⟨action, hprogress⟩
      · exact hprogress ▸ hq
      · unfold Progress.perform at hprogress
        split at hprogress
        · next w hw =>
            rw [← Except.ok.inj hprogress]
            exact hv.keeps q.world w action hq hw
        · cases hprogress

theorem run (hcode : s.code.AsksFor asked) (m : Machine Unit) (hm : valid m.progress.world)
    (hasks : m.AsksFor asked s.code) :
    Machine.run s (v.machine m) = v.part v.progress (Machine.run s m) := by
  induction m using Machine.turn_induction s with
  | hturn m ih =>
      have hseen := hv.turn hm hasks hcode
      cases hturn : m.turn s with
      | finished =>
          rw [hturn] at hseen
          rw [Machine.run, hseen, Machine.run, hturn]
          rfl
      | stopped stop =>
          rw [hturn] at hseen
          rw [Machine.run, hseen, Machine.run, hturn]
          rfl
      | running m' =>
          rw [hturn] at hseen
          rw [Machine.run_of_running hseen, Machine.run_of_running hturn]
          exact ih m' hturn (hv.valid_of_turn hm hturn) (asksFor_of_turn hasks hcode hturn)

end View.Faithful

theorem View.result_ofEnd (v : View) (x : Except (Stop Unit) (Progress Unit)) :
    RunResult.ofEnd (v.part v.progress x) = v.result (.ofEnd x) := by
  have houtcome (p : Progress Unit) : Outcome.ofProgress (v.progress p) = v.outcome (.ofProgress p) := by
    show Outcome.mk _ (p.history.map v.entry).reverse _ = Outcome.mk _ (p.history.reverse.map v.entry) _
    rw [List.map_reverse]
    rfl
  cases x with
  | ok p => exact congrArg Except.ok (houtcome p)
  | error stop => exact congrArg (fun o => Except.error (Failure.mk _ _ o)) (houtcome stop.progress)

/-- The run from a world that is seen is the run from the world, seen. -/
theorem runScript_view {v : View} {valid : World → Prop} {asked : Condition → Prop}
    (hv : v.Faithful valid asked) {script : String}
    (hscript : (Code.ofProgram (Program.parse script)).AsksFor asked) {world : World}
    (hworld : valid world) (limit : Nat) :
    runScript script (v.world world) limit = v.result (runScript script world limit) := by
  rcases runScript_eq script world limit with ⟨hnone, hrun⟩ | ⟨hsome, hrun⟩
  · rcases runScript_eq script (v.world world) limit with ⟨-, hrun'⟩ | ⟨hsome, -⟩
    · rw [hrun, hrun']
      show Except.error _ = Except.error (v.failure _)
      rw [View.failure, hv.error .noEntryPoint rfl]
      rfl
    · exact absurd hnone hsome
  · rcases runScript_eq script (v.world world) limit with ⟨hnone, -⟩ | ⟨-, hrun'⟩
    · exact absurd hnone hsome
    · have hasks : (Machine.load script world).AsksFor asked (Setting.ofScript script limit).code := by
        refine ⟨Machine.runsCode_load script world, fun f hf c hc => ?_⟩
        obtain ⟨body, -, rfl⟩ := List.mem_map.1 hf
        cases hc
      have hload := hv.run (s := .ofScript script limit) hscript (.load script world) hworld hasks
      rw [hrun, hrun', ← View.result_ofEnd, ← hload]
      rfl

end GridRobot
