import Mathlib.Data.List.Forall2
import GridRobot.Proofs.Plan.Script
import GridRobot.Proofs.Plan.Visit

/-!
# Plans run as their scripts do

The machine that runs the script of a plan keeps, frame by frame, to the recursion over the plan. As long
as every frame shows its scope, one turn of the machine changes nothing about the course of the scopes but
the room, and that is all `Course.run_eq_of_follows` asks for.
-/

namespace GridRobot

namespace Scope

variable {σ : Type} {e : Staging σ} {s : Setting σ} {sc : Scope} {f : Frame} {p : Progress σ}

theorem Shown.course_of_pending_eq_nil (h : sc.Shown f) (hpending : f.pending = []) (p : Progress σ) :
    e.scopeCourse sc p = e.againCourse sc p := by
  have htodo := h.todo
  rw [hpending] at htodo
  rw [Staging.scopeCourse, htodo.eq_nil, Forest.eval.eq_def, pure_bind]

theorem Shown.repeated (h : sc.Shown f) (hpending : f.pending = []) (hrepeats : f.repeats p.world = true) :
    e.Entered sc.room p (e.scopeCourse sc p) (some (f.resume f.body)) := by
  rw [h.course_of_pending_eq_nil hpending, Staging.againCourse]
  rw [Frame.repeats, h.condition] at hrepeats
  cases hagain : sc.again with
  | none => simp [hagain] at hrepeats
  | some loop =>
      obtain ⟨c, number, body⟩ := loop
      have hholds : c.holds p.world = true := by simpa [hagain] using hrepeats
      dsimp only
      rw [Forest.again.eq_def, if_pos hholds]
      cases sc.room with
      | zero => exact .inl ⟨rfl, rfl⟩
      | succ room =>
          refine .inr ⟨⟨room, number, body, sc.again⟩, rfl, ⟨h.body _ hagain, h.condition, h.body⟩, ?_⟩
          simp only [Staging.scopeCourse, Staging.againCourse, hagain]

theorem Shown.left (h : sc.Shown f) (hpending : f.pending = []) (hrepeats : f.repeats p.world = false) :
    e.scopeCourse sc p = pure p := by
  rw [h.course_of_pending_eq_nil hpending, Staging.againCourse]
  rw [Frame.repeats, h.condition] at hrepeats
  cases hagain : sc.again with
  | none => rfl
  | some loop =>
      have hholds : ¬ loop.1.holds p.world = true := by simpa [hagain] using hrepeats
      dsimp only
      rw [Forest.again.eq_def, if_neg hholds]

theorem Shown.passed (h : sc.Shown f) {l : Line} {rest : List Line} (hpending : f.pending = l :: rest)
    (hl : l.isCounted = false) : sc.Shown (f.resume rest) :=
  ⟨(hpending ▸ h.todo).of_not_counted hl, h.condition, h.body⟩

/-- A line that is counted carries out the first statement to come. -/
theorem Shown.visited (h : sc.Shown f) (hmatches : e.Matches s) {l : Line} {rest : List Line}
    (hpending : f.pending = l :: rest) (hl : l.isCounted = true) (p : Progress σ) :
    ∃ k number next, e.Reached sc.room k number next (s.visit l rest p) ∧
      e.scopeCourse sc p = k >>= e.scopeCourse ⟨sc.room, number, next, sc.again⟩ := by
  obtain ⟨depth, t, next, tail, htodo, htail, hlines⟩ := (hpending ▸ h.todo).exists_tree hl
  obtain ⟨l', rest', hlines', hreached⟩ :=
    Staging.reached_tree hmatches sc.room depth sc.number t next htail p
  rw [hlines'] at hlines
  cases hlines
  refine ⟨_, _, next, hreached, ?_⟩
  simp only [Staging.scopeCourse, Staging.againCourse]
  rw [htodo, Forest.eval.eq_def, bind_assoc]
  rfl

end Scope

namespace Machine

variable {σ : Type} {e : Staging σ} {s : Setting σ}

/-- The course of a plan that the frames of a machine show, with room for some levels everywhere. -/
def ShowsCourse (e : Staging σ) (room : Nat) (m : Machine σ) (k : Course σ (Progress σ)) : Prop :=
  ∃ scopes, List.Forall₂ Scope.Shown scopes m.frames ∧ (∀ sc ∈ scopes, room ≤ sc.room) ∧
    k = e.scopesCourse scopes m.progress

theorem showsCourse_entered {room n : Nat} (hn : room ≤ n) {scopes : List Scope} {frames : List Frame}
    (hshown : List.Forall₂ Scope.Shown scopes frames) (hrooms : ∀ sc ∈ scopes, room - 1 ≤ sc.room)
    {p : Progress σ} {k : Course σ (Progress σ)} {entered : Option Frame} (h : e.Entered n p k entered) :
    (room = 0 ∧ k >>= e.scopesCourse scopes = .cramped) ∨
      ShowsCourse e (room - 1) ⟨p, entered.toList ++ frames⟩ (k >>= e.scopesCourse scopes) := by
  cases entered with
  | none =>
      refine .inr ⟨scopes, hshown, hrooms, ?_⟩
      rw [show k = pure p from h, pure_bind]
  | some f =>
      rcases h with ⟨rfl, rfl⟩ | ⟨sc, rfl, hsc, rfl⟩
      · exact .inl ⟨Nat.le_zero.1 hn, rfl⟩
      · exact .inr ⟨sc :: scopes, .cons hsc hshown, List.forall_mem_cons.2 ⟨by omega, hrooms⟩, rfl⟩

/-- No turn of the machine changes the course of the plan that it shows. -/
theorem showsCourse_follows_turn (hmatches : e.Matches s) (room : Nat) (m : Machine σ)
    (k : Course σ (Progress σ)) (hm : m.ShowsCourse e room k) :
    (room = 0 ∧ k = .cramped) ∨ Course.Follows (ShowsCourse e (room - 1)) m k (m.turn s) := by
  obtain ⟨scopes, hshown, hroom, rfl⟩ := hm
  generalize hturn : m.turn s = turn
  have hcases := turn_cases hturn
  generalize m.frames = frames at hcases hshown
  cases hshown with
  | nil =>
      cases hcases
      exact .inr rfl
  | @cons sc f below _ hsc hshown =>
      obtain ⟨hn, hbelow⟩ := List.forall_mem_cons.1 hroom
      have hbelow : ∀ sc ∈ below, room - 1 ≤ sc.room :=
        fun sc h => Nat.le_trans (Nat.sub_le room 1) (hbelow sc h)
      have hn' : room - 1 ≤ sc.room := Nat.le_trans (Nat.sub_le room 1) hn
      rw [Staging.scopesCourse]
      cases hcases with
      | repeated hpending hrepeats =>
          exact showsCourse_entered hn hshown hbelow (hsc.repeated hpending hrepeats)
      | left hpending hrepeats =>
          rw [hsc.left hpending hrepeats, pure_bind]
          exact .inr ⟨below, hshown, hbelow, rfl⟩
      | passed hpending hl =>
          exact .inr ⟨sc :: below, .cons (hsc.passed hpending hl) hshown,
            List.forall_mem_cons.2 ⟨hn', hbelow⟩, rfl⟩
      | @visited _ _ _ _ v hpending hl hvisit =>
          obtain ⟨k, number, next, hreached, hcourse⟩ := hsc.visited hmatches hpending hl m.progress
          rw [hvisit] at hreached
          obtain ⟨hnext, hentered⟩ := hreached
          have hresumed : Scope.Shown ⟨sc.room, number, next, sc.again⟩ (f.resume v.resume) :=
            ⟨hnext, hsc.condition, hsc.body⟩
          rw [hcourse, bind_assoc]
          exact showsCourse_entered hn (.cons hresumed hshown) (List.forall_mem_cons.2 ⟨hn', hbelow⟩) hentered
      | stopped hpending hl hvisit =>
          obtain ⟨k, number, next, hreached, hcourse⟩ := hsc.visited hmatches hpending hl m.progress
          rw [hvisit] at hreached
          rw [hcourse, show k = throw _ from hreached]
          exact .inr rfl

end Machine

namespace Plan

theorem exists_entryPoint (plan : Plan) :
    ∃ row body, Routine.locate entryPoint 1 plan.routines = some (row, body) := by
  have hlocate (rs : List Routine) (row : Nat) (h : entryPoint ∈ rs.map (·.name.name)) :
      ∃ row' body, Routine.locate entryPoint row rs = some (row', body) := by
    induction rs generalizing row with
    | nil => cases h
    | cons r rs ih =>
        rw [Routine.locate]
        by_cases hname : r.name.name = entryPoint
        · rw [if_pos hname]
          exact ⟨_, _, rfl⟩
        · rw [if_neg hname]
          rcases List.mem_cons.1 h with h | h
          · exact absurd h.symm hname
          · exact ih _ h
  exact hlocate plan.routines 1 plan.hasEntryPoint

theorem staging_matches (plan : Plan) (feeds limit : Nat) :
    (plan.staging limit).Matches (.ofScript (plan.render feeds) limit) :=
  ⟨rfl, rfl, plan.shown_body? feeds⟩

theorem load_showsCourse (plan : Plan) (feeds limit : Nat) (world : World) {row : Nat} {body : Forest}
    (hentry : Routine.locate entryPoint 1 plan.routines = some (row, body)) (room : Nat) :
    Machine.ShowsCourse (plan.staging limit) room (.load (plan.render feeds) world)
      (body.eval (plan.staging limit) room row (.start world ())) := by
  have hmain := plan.shown_body? feeds entryPoint
  rw [hentry] at hmain
  rw [Machine.load]
  generalize (Code.ofProgram (Program.parse (plan.render feeds))).body? entryPoint = found at hmain ⊢
  cases hmain with
  | some hbody =>
      refine ⟨[⟨room, row, body, none⟩], .cons ⟨hbody, rfl, ?_⟩ .nil, ?_, ?_⟩
      · intro loop hloop
        cases hloop
      · intro sc hsc
        cases List.mem_singleton.1 hsc
        exact Nat.le_refl room
      · simp [Staging.scopesCourse, Staging.scopeCourse, Staging.againCourse]

/-- The script of a plan runs as the plan does, in every world and under every step limit. Whatever direct
evaluation comes to, it is the same success or error, at the same line, with the same steps, trace and
world; and it comes to that as soon as there is enough room. -/
theorem run_eq_runScript_render (plan : Plan) (feeds : Nat) (world : World) (limit : Nat) :
    ∃ enough, ∀ room, plan.run room world limit = some (runScript (plan.render feeds) world limit) ∨
      (plan.run room world limit = none ∧ room < enough) := by
  have hmatches := plan.staging_matches feeds limit
  have hmain := plan.shown_body? feeds entryPoint
  obtain ⟨row, body, hentry⟩ := plan.exists_entryPoint
  rw [hentry] at hmain
  rcases runScript_eq (plan.render feeds) world limit with ⟨hnone, -⟩ | ⟨-, hrun⟩
  · rw [hnone] at hmain
    cases hmain
  · obtain ⟨enough, henough⟩ := Course.run_eq_of_follows (Machine.showsCourse_follows_turn hmatches)
      (.load (plan.render feeds) world)
    refine ⟨enough, fun room => ?_⟩
    have hcourse := henough room _ (plan.load_showsCourse feeds limit world hentry room)
    unfold Plan.run
    rw [hentry, hrun]
    dsimp only [Option.bind_eq_bind, Option.bind_some]
    rcases hcourse with hcourse | ⟨hcourse, hlt⟩
    · rw [hcourse]
      exact .inl rfl
    · rw [hcourse]
      exact .inr ⟨rfl, hlt⟩

end Plan

end GridRobot
