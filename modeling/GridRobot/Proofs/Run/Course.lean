import GridRobot.Run.Outcome

/-!
# Courses of a run

The machine of `Run.Machine` always stops. A semantics that is written by plain recursion need not, so it
is given room: a number that says how deeply its blocks may nest. Its answers are courses: a progress, a
stop, or nothing at all where there was not enough room. This module compares the two. A course that
every turn of the machine leaves the same, and for which a turn takes up one level of room at most, is
what the machine computes as soon as it is anything at all, and there is an end to the room it needs.
`run_eq_of_follows` is the only induction over runs that such a comparison needs.
-/

namespace GridRobot

/-- A computation that may stop early and may run out of room. -/
abbrev Course (σ : Type) := ExceptT (Stop σ) Option

namespace Course

variable {σ α β : Type}

/-- The course for which there is not enough room. -/
def cramped : Course σ α := ExceptT.mk none

@[simp] theorem liftM_ok (a : α) : (liftM (Except.ok a : Except (Stop σ) α) : Course σ α) = pure a :=
  rfl

@[simp] theorem liftM_error (stop : Stop σ) :
    (liftM (Except.error stop : Except (Stop σ) α) : Course σ α) = throw stop := rfl

@[simp] theorem cramped_bind (next : α → Course σ β) : ((cramped : Course σ α) >>= next) = cramped := rfl

@[simp] theorem throw_bind (stop : Stop σ) (next : α → Course σ β) :
    ((throw stop : Course σ α) >>= next) = throw stop := rfl

theorem liftM_bind (x : Except (Stop σ) α) (next : α → Except (Stop σ) β) :
    (liftM (x >>= next) : Course σ β) = liftM x >>= fun a => liftM (next a) := by
  cases x <;> rfl

/-- The course of a machine that goes on, is done, or has stopped, given the courses of machines. -/
def Follows (R : Machine σ → Course σ (Progress σ) → Prop) (m : Machine σ)
    (k : Course σ (Progress σ)) : Turn σ → Prop
  | .running m' => R m' k
  | .finished => k = pure m.progress
  | .stopped stop => k = throw stop

/-- A course is what the machine computes unless there is not enough room. `R room m k` says that `k` is a
course of what the machine `m` has still to do, in which there is room everywhere for `room` levels. A turn takes up
one level at most, so one level more than the rest of the run needs is enough. -/
theorem run_eq_of_follows {s : Setting σ} {R : Nat → Machine σ → Course σ (Progress σ) → Prop}
    (hturn : ∀ room m k, R room m k →
      (room = 0 ∧ k = cramped) ∨ Follows (R (room - 1)) m k (m.turn s)) (m : Machine σ) :
    ∃ enough, ∀ room k, R room m k → k = liftM (Machine.run s m) ∨ (k = cramped ∧ room < enough) := by
  induction m using Machine.run.induct s with
  | case1 m hfinished =>
      refine ⟨1, fun room k hk => ?_⟩
      rcases hturn room m k hk with ⟨rfl, hcramped⟩ | hfollows
      · exact .inr ⟨hcramped, Nat.zero_lt_one⟩
      · rw [hfinished] at hfollows
        rw [Machine.run, hfinished]
        exact .inl hfollows
  | case2 m stop hstopped =>
      refine ⟨1, fun room k hk => ?_⟩
      rcases hturn room m k hk with ⟨rfl, hcramped⟩ | hfollows
      · exact .inr ⟨hcramped, Nat.zero_lt_one⟩
      · rw [hstopped] at hfollows
        rw [Machine.run, hstopped]
        exact .inl hfollows
  | case3 m m' hrunning ih =>
      obtain ⟨enough, henough⟩ := ih
      refine ⟨enough + 1, fun room k hk => ?_⟩
      rcases hturn room m k hk with ⟨rfl, hcramped⟩ | hfollows
      · exact .inr ⟨hcramped, Nat.zero_lt_succ enough⟩
      · rw [hrunning] at hfollows
        rw [Machine.run, hrunning]
        rcases henough (room - 1) k hfollows with hk | ⟨hcramped, hlt⟩
        · exact .inl hk
        · exact .inr ⟨hcramped, by omega⟩

end Course

end GridRobot
