import GridRobot.Command
import GridRobot.Condition

/-!
# What a run has done so far

A run carries the world along with the history of its commands, the number of lines it has counted, the
line it is at, and whatever someone who watches it keeps. A run that stops early hands back the progress
it had made, so every operation that can fail returns it along with the cause.
-/

namespace GridRobot

/-- A command that was carried out, and the world right after it. -/
structure Entry where
  action : Command
  world : World
  deriving DecidableEq

structure Progress (σ : Type) where
  world : World
  /-- The commands carried out, the latest first. -/
  history : List Entry
  steps : Nat
  line : Option Nat
  /-- What the observer of the run keeps. -/
  seen : σ

/-- The cause that ended a run and how far it had come. -/
structure Stop (σ : Type) where
  error : RunError
  progress : Progress σ

namespace Progress

variable {σ : Type}

/-- Nothing done yet. -/
def start (world : World) (seen : σ) : Progress σ := ⟨world, [], 0, none, seen⟩

/-- Comes to a line and counts it. -/
def count (number : Nat) (p : Progress σ) : Progress σ :=
  { p with line := some number, steps := p.steps + 1 }

/-- Counts a line unless that makes more of them than the limit. -/
def visit (limit number : Nat) (p : Progress σ) : Except (Stop σ) (Progress σ) :=
  if limit < p.steps + 1 then .error ⟨.stepLimit limit, p.count number⟩ else .ok (p.count number)

/-- The condition a line names. -/
def resolve (number : Nat) (condition : String) (p : Progress σ) : Except (Stop σ) Condition :=
  match Condition.ofName? condition with
  | some c => .ok c
  | none => .error ⟨.unknownCondition condition number, p⟩

/-- Carries out a command, writes it into the history and shows it to the observer. -/
def perform (observe : σ → Entry → σ) (action : Command) (p : Progress σ) :
    Except (Stop σ) (Progress σ) :=
  match action.apply p.world with
  | .ok world =>
      let entry : Entry := ⟨action, world⟩
      .ok { p with world, history := entry :: p.history, seen := observe p.seen entry }
  | .error e => .error ⟨e, p⟩

theorem visit_eq_ok {limit number : Nat} {p q : Progress σ} (h : p.visit limit number = .ok q) :
    q.steps = p.steps + 1 ∧ q.steps ≤ limit := by
  unfold visit at h
  split at h
  · simp at h
  · next hle =>
      cases h
      exact ⟨rfl, Nat.le_of_not_lt hle⟩

theorem steps_perform {observe : σ → Entry → σ} {action : Command} {p q : Progress σ}
    (h : p.perform observe action = .ok q) : q.steps = p.steps := by
  unfold perform at h
  split at h
  · cases h
    rfl
  · simp at h

end Progress

end GridRobot
