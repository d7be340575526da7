import GridRobot.Run.Chain
import GridRobot.Script.Program

/-!
# The machine that runs scripts

Blocks being run are frames on a stack, so calls may nest as deeply as the step limit lets them. One
turn of the machine looks at the next line of the top frame: a line that is not counted is passed over,
any other line is counted and carried out, and at the end of a frame a loop starts over while its
condition is true and everything else is done with.

Passing over lines, starting over and leaving a frame count no step. The machine stops nevertheless,
because a loop is only entered when its block holds a line that counts: between two counted lines the
weight of the stack goes down with every turn.
-/

namespace GridRobot

/-- A block being run. -/
structure Frame where
  body : List Line
  /-- The lines of the block that are still to come. -/
  pending : List Line
  /-- For a loop, the condition under which the block is run again. -/
  again : Option Condition
  /-- A loop has a line that counts. -/
  counts : again.isSome = true → body.any Line.isCounted = true

namespace Frame

/-- A block that is run once. -/
def once (body : List Line) : Frame := ⟨body, body, none, by simp⟩

/-- A block that is run as long as a condition is true. -/
def loop (c : Condition) (body : List Line) (counts : body.any Line.isCounted = true) : Frame :=
  ⟨body, body, some c, fun _ => counts⟩

/-- The frame with other lines to come. -/
def resume (f : Frame) (pending : List Line) : Frame := { f with pending }

/-- Whether the block is to be run again. -/
def repeats (w : World) (f : Frame) : Bool := f.again.any (·.holds w)

/-- How many turns a frame may take at most before a line is counted or the frame is left. -/
def weight (f : Frame) : Nat :=
  bif f.again.isSome && f.pending.any Line.isCounted then f.pending.length
  else f.pending.length + f.body.length + 1

theorem weight_resume_body {f : Frame} {w : World} (hp : f.pending = []) (hr : f.repeats w = true) :
    (f.resume f.body).weight < f.weight := by
  have ha : f.again.isSome = true := by
    unfold repeats at hr
    cases h : f.again <;> simp_all
  simp [weight, resume, hp, ha, f.counts ha]

theorem weight_pos {f : Frame} (hp : f.pending = []) : 0 < f.weight := by
  simp [weight, hp]

theorem weight_resume_rest {f : Frame} {l : Line} {rest : List Line} (hp : f.pending = l :: rest)
    (hl : l.isCounted = false) : (f.resume rest).weight < f.weight := by
  have ha : f.pending.any Line.isCounted = rest.any Line.isCounted := by simp [hp, hl]
  have hlen : f.pending.length = rest.length + 1 := by simp [hp]
  simp only [weight, resume, ha, hlen]
  cases (f.again.isSome && rest.any Line.isCounted) <;> simp

end Frame

/-- What stays the same during a run. -/
structure Setting (σ : Type) where
  code : Code
  limit : Nat
  observe : σ → Entry → σ

/-- The progress of a run and the blocks it is in, the innermost first. -/
structure Machine (σ : Type) where
  progress : Progress σ
  frames : List Frame

/-- What one line comes to. -/
structure Visit (σ : Type) where
  progress : Progress σ
  /-- The lines with which its block goes on. -/
  resume : List Line
  /-- The block to run before that. -/
  entered : Option Frame

/-- What one turn of the machine comes to. -/
inductive Turn (σ : Type) where
  | running (m : Machine σ)
  | finished
  | stopped (s : Stop σ)

/-- Names that may be called although nothing happens then. -/
def idleCalls : List String := ["pass", "run_karel_program"]

namespace Setting

variable {σ : Type}

/-- Comes to a `while` line. A loop that could never end is refused. -/
def enterLoop (s : Setting σ) (l : Line) (rest : List Line) (condition : String) (p : Progress σ) :
    Except (Stop σ) (Visit σ) := do
  let c ← p.resolve l.number condition
  if c.holds p.world then
    if h : (Line.block rest).any Line.isCounted = true then
      .ok ⟨p, Line.afterBlock rest, some (.loop c (Line.block rest) h)⟩
    else .error ⟨.emptyLoop s.limit, p⟩
  else .ok ⟨p, Line.afterBlock rest, none⟩

/-- Comes to an `if` line: goes through its chain and goes on behind it. -/
def enterBranch (s : Setting σ) (l : Line) (rest : List Line) (condition : String)
    (p : Progress σ) : Except (Stop σ) (Visit σ) := do
  let c ← p.resolve l.number condition
  let chain := Clause.chain l.margin? (Line.afterBlock rest)
  let (chosen, p) ←
    Clause.choose s.limit chain.1 (if c.holds p.world then some (Line.block rest) else none) p
  .ok ⟨p, chain.2, chosen.map .once⟩

/-- Comes to a call: of a command, else of a procedure, else of a name that does nothing. -/
def enterCall (s : Setting σ) (l : Line) (rest : List Line) (name : String) (p : Progress σ) :
    Except (Stop σ) (Visit σ) :=
  match Command.ofName? name with
  | some action => (p.perform s.observe action).map (⟨·, rest, none⟩)
  | none =>
      match s.code.body? name with
      | some body => .ok ⟨p, rest, some (.once body)⟩
      | none =>
          if idleCalls.contains name || (Condition.ofName? name).isSome then .ok ⟨p, rest, none⟩
          else .error ⟨.unknownCommand name l.number, p⟩

/-- Counts a line and carries it out. A clause that carries on no chain does nothing. -/
def visit (s : Setting σ) (l : Line) (rest : List Line) (p : Progress σ) :
    Except (Stop σ) (Visit σ) := do
  let p ← p.visit s.limit l.number
  match l.statement with
  | .whileLoop condition => s.enterLoop l rest condition p
  | .ifBranch condition => s.enterBranch l rest condition p
  | .call name => s.enterCall l rest name p
  | _ => .ok ⟨p, rest, none⟩

theorem steps_enterLoop {s : Setting σ} {l : Line} {rest : List Line} {condition : String}
    {p : Progress σ} {v : Visit σ} (h : s.enterLoop l rest condition p = .ok v) :
    v.progress.steps = p.steps := by
  simp only [enterLoop, bind, Except.bind] at h
  split at h
  · simp at h
  · split at h
    · split at h
      · cases h
        rfl
      · simp at h
    · cases h
      rfl

theorem steps_enterBranch {s : Setting σ} {l : Line} {rest : List Line} {condition : String}
    {p : Progress σ} {v : Visit σ} (h : s.enterBranch l rest condition p = .ok v)
    (hp : p.steps ≤ s.limit) : p.steps ≤ v.progress.steps ∧ v.progress.steps ≤ s.limit := by
  simp only [enterBranch, bind, Except.bind] at h
  split at h
  · simp at h
  · split at h
    · simp at h
    · next hc =>
        cases h
        exact Clause.steps_choose hc hp

theorem steps_enterCall {s : Setting σ} {l : Line} {rest : List Line} {name : String}
    {p : Progress σ} {v : Visit σ} (h : s.enterCall l rest name p = .ok v) :
    v.progress.steps = p.steps := by
  unfold enterCall at h
  split at h
  · next action _ =>
      cases hp : p.perform s.observe action with
      | error e => simp [hp, Except.map] at h
      | ok q =>
          simp only [hp, Except.map, Except.ok.injEq] at h
          rw [← h, Progress.steps_perform hp]
  · split at h
    · cases h
      rfl
    · split at h
      · cases h
        rfl
      · simp at h

/-- A line that is carried out has been counted, and the limit was kept. -/
theorem steps_visit {s : Setting σ} {l : Line} {rest : List Line} {p : Progress σ} {v : Visit σ}
    (h : s.visit l rest p = .ok v) : p.steps < v.progress.steps ∧ v.progress.steps ≤ s.limit := by
  simp only [visit, bind, Except.bind] at h
  split at h
  · simp at h
  · next q hq =>
      have hq := Progress.visit_eq_ok hq
      split at h
      · have := steps_enterLoop h
        omega
      · have := steps_enterBranch h hq.2
        omega
      · have := steps_enterCall h
        omega
      · cases h
        simp only
        omega

end Setting

namespace Machine

variable {σ : Type}

/-- One turn of the machine. -/
def turn (s : Setting σ) (m : Machine σ) : Turn σ :=
  match m.frames with
  | [] => .finished
  | f :: below =>
      match f.pending with
      | [] =>
          if f.repeats m.progress.world then .running { m with frames := f.resume f.body :: below }
          else .running { m with frames := below }
      | l :: rest =>
          if l.isCounted then
            match s.visit l rest m.progress with
            | .ok v => .running ⟨v.progress, v.entered.toList ++ f.resume v.resume :: below⟩
            | .error stop => .stopped stop
          else .running { m with frames := f.resume rest :: below }

/-- How many turns the machine may take at most before a line is counted. -/
def weight (m : Machine σ) : Nat := m.frames.foldr (fun f n => f.weight + n) 0

theorem turn_decreases {s : Setting σ} {m m' : Machine σ} (h : m.turn s = .running m') :
    Prod.Lex (· < ·) (· < ·) (s.limit + 1 - m'.progress.steps, m'.weight)
      (s.limit + 1 - m.progress.steps, m.weight) := by
  unfold turn at h
  split at h
  · simp at h
  · next f below hf =>
      split at h
      · next hp =>
          split at h
          · next hr =>
              cases h
              have := Frame.weight_resume_body hp hr
              exact .right _ (by simp only [weight, hf, List.foldr_cons]; omega)
          · cases h
            have := Frame.weight_pos hp
            exact .right _ (by simp only [weight, hf, List.foldr_cons]; omega)
      · next l rest hp =>
          split at h
          · split at h
            · next v hv =>
                cases h
                have := Setting.steps_visit hv
                exact .left _ _ (by simp only; omega)
            · simp at h
          · next hl =>
              cases h
              have := Frame.weight_resume_rest hp (by simpa using hl)
              exact .right _ (by simp only [weight, hf, List.foldr_cons]; omega)

/-- Runs until nothing is left to do, or until something goes wrong. -/
def run (s : Setting σ) (m : Machine σ) : Except (Stop σ) (Progress σ) :=
  match _h : m.turn s with
  | .finished => .ok m.progress
  | .stopped stop => .error stop
  | .running m' => run s m'
termination_by (s.limit + 1 - m.progress.steps, m.weight)
decreasing_by exact turn_decreases _h

end Machine

end GridRobot
