import GridRobot.Proofs.Plan.Layout
import GridRobot.Proofs.Run.Recursive

/-!
# Statements of a plan as the machine comes to them

What a frame of the machine is for its lines, a scope is for the statements of the plan: those that are
still to come and, for a loop, the block to start over with. Here the machine comes to the first line that
shows a statement of a plan. Either it stops there as the plan does, or it goes on with lines that show
the statements behind, after a frame that shows a scope of the plan.
-/

namespace GridRobot

/-- A block of a plan that is being run, with the number of the line it goes on at. -/
structure Scope where
  room : Nat
  number : Nat
  todo : Forest
  /-- For a loop, its condition and its block, with the number of the block's first line. -/
  again : Option (Condition × Nat × Forest)

/-- The lines of a frame show the statements of a scope. -/
structure Scope.Shown (sc : Scope) (f : Frame) : Prop where
  todo : sc.todo.Shown sc.number f.pending
  condition : f.again = sc.again.map (·.1)
  body : ∀ loop ∈ sc.again, loop.2.2.Shown loop.2.1 f.body

/-- The procedures that are run directly are those the machine runs, under the same limit. -/
structure Staging.Matches {σ : Type} (e : Staging σ) (s : Setting σ) : Prop where
  limit : s.limit = e.limit
  observe : s.observe = e.observe
  bodies : ∀ name, Option.Rel Forest.ShownAt (e.routine? name) (s.code.body? name)

namespace Staging

variable {σ : Type} {e : Staging σ} {s : Setting σ}

/-- The course of a scope whose statements are done: for a loop, what is left of the loop. -/
def againCourse (e : Staging σ) (sc : Scope) (p : Progress σ) : Course σ (Progress σ) :=
  match sc.again with
  | some (c, number, body) => body.again e sc.room c number p
  | none => pure p

/-- The course of a scope: the statements to come, and what there is to do behind them. -/
def scopeCourse (e : Staging σ) (sc : Scope) (p : Progress σ) : Course σ (Progress σ) := do
  let p ← sc.todo.eval e sc.room sc.number p
  e.againCourse sc p

def scopesCourse (e : Staging σ) : List Scope → Progress σ → Course σ (Progress σ)
  | [], p => pure p
  | sc :: below, p => do
      let p ← e.scopeCourse sc p
      e.scopesCourse below p

/-- The course of a block that is entered, if there is one, one level deeper. -/
def Entered (e : Staging σ) (room : Nat) (p : Progress σ) (k : Course σ (Progress σ)) :
    Option Frame → Prop
  | none => k = pure p
  | some f => (room = 0 ∧ k = .cramped) ∨
      ∃ sc : Scope, sc.room + 1 = room ∧ sc.Shown f ∧ k = e.scopeCourse sc p

/-- What the machine comes to at a statement with a given course, when `more` stands behind it: it stops
as the course does, or else the block it enters, if any, shows all that the course has still to do. -/
def Reached (e : Staging σ) (room : Nat) (k : Course σ (Progress σ)) (number : Nat) (more : Forest) :
    Except (Stop σ) (Visit σ) → Prop
  | .error stop => k = throw stop
  | .ok v => more.Shown number v.resume ∧ e.Entered room v.progress k v.entered

theorem reached_bind {α : Type} {room : Nat} {x : Except (Stop σ) α} {k : α → Course σ (Progress σ)}
    {number : Nat} {more : Forest} {visit : α → Except (Stop σ) (Visit σ)}
    (h : ∀ a, e.Reached room (k a) number more (visit a)) :
    e.Reached room (liftM x >>= k) number more (x >>= visit) := by
  cases x with
  | error stop => exact rfl
  | ok a => exact h a

theorem reached_passed (room : Nat) {number : Nat} {more : Forest} {rest : List Line}
    (hrest : more.Shown number rest) (p : Progress σ) :
    e.Reached room (pure p) number more (.ok ⟨p, rest, none⟩) :=
  ⟨hrest, rfl⟩

theorem reached_enter (room : Nat) {number : Nat} {more : Forest} {rest : List Line}
    (hrest : more.Shown number rest) {block : Option (Nat × Forest)} {lines : Option (List Line)}
    (hblock : Option.Rel Forest.ShownAt block lines) (p : Progress σ) :
    e.Reached room (Forest.enter e room block p) number more (.ok ⟨p, rest, lines.map .once⟩) := by
  refine ⟨hrest, ?_⟩
  rw [Forest.enter.eq_def]
  cases hblock with
  | none => exact rfl
  | @some located lines hbody =>
      cases room with
      | zero => exact .inl ⟨rfl, rfl⟩
      | succ room =>
          refine .inr ⟨⟨room, located.1, located.2, none⟩, rfl, ⟨hbody, rfl, ?_⟩, ?_⟩
          · intro loop hloop
            cases hloop
          · simp [scopeCourse, againCourse]

theorem reached_call (hmatches : e.Matches s) (room depth number : Nat) (name : Word) {more : Forest}
    {rest : List Line} (hrest : more.Shown (number + 1) rest) (p : Progress σ) :
    e.Reached room ((Tree.call name).eval e room number p) (number + 1) more
      (s.visit (Row.line number ⟨depth, .call name⟩) rest p) := by
  rw [Tree.eval, Setting.visit, hmatches.limit]
  refine reached_bind fun q => ?_
  change e.Reached _ _ _ _ (s.enterCall (Row.line number ⟨depth, .call name⟩) rest name.name q)
  rw [Setting.enterCall]
  dsimp only
  cases Command.ofName? name.name with
  | some action =>
      dsimp only
      rw [hmatches.observe]
      cases q.perform e.observe action with
      | ok q' => exact reached_passed room hrest q'
      | error stop => exact rfl
  | none =>
      have hbody := hmatches.bodies name.name
      generalize e.routine? name.name = located at hbody ⊢
      generalize s.code.body? name.name = lines at hbody ⊢
      cases hbody with
      | some hbody => exact reached_enter room hrest (.some hbody) q
      | none =>
          dsimp only
          split
          · exact reached_passed room hrest q
          · exact rfl

theorem reached_loop (hlimit : s.limit = e.limit) (room depth number : Nat) (condition : Word)
    (first : Tree) (more : Forest) {number' : Nat} {next : Forest} {rest : List Line}
    (hbody : (Forest.cons first more).Shown (number + 1) (Line.block rest))
    (hnext : next.Shown number' (Line.afterBlock rest)) (p : Progress σ) :
    e.Reached room ((Tree.loop condition first more).eval e room number p) number' next
      (s.visit (Row.line number ⟨depth, .loop condition⟩) rest p) := by
  rw [Tree.eval, Setting.visit, hlimit]
  refine reached_bind fun q => ?_
  change e.Reached _ _ _ _ (s.enterLoop (Row.line number ⟨depth, .loop condition⟩) rest condition.name q)
  rw [Setting.enterLoop]
  refine reached_bind fun c => ?_
  rw [Forest.again.eq_def]
  by_cases hholds : c.holds q.world = true
  · rw [if_pos hholds, if_pos hholds, dif_pos hbody.any_isCounted]
    refine ⟨hnext, ?_⟩
    cases room with
    | zero => exact .inl ⟨rfl, rfl⟩
    | succ room =>
        refine .inr ⟨⟨room, number + 1, .cons first more, some (c, number + 1, .cons first more)⟩, rfl,
          ⟨hbody, rfl, ?_⟩, rfl⟩
        intro loop hloop
        cases hloop
        exact hbody
  · rw [if_neg hholds, if_neg hholds]
    exact reached_passed room hnext q

end Staging

/-! ### Chains of clauses -/

namespace Clause

theorem chain_lines_cons (depth number : Nat) (ph : Phrase) (rest : List Line) :
    chain (some (4 * depth)) (Row.line number ⟨depth, ph⟩ :: rest) =
      match ph.statement with
      | .elifBranch c =>
          (⟨number, some c, Line.block rest⟩ :: (chain (some (4 * depth)) (Line.afterBlock rest)).1,
            (chain (some (4 * depth)) (Line.afterBlock rest)).2)
      | .elseBranch => ([⟨number, none, Line.block rest⟩], Line.afterBlock rest)
      | _ => ([], Row.line number ⟨depth, ph⟩ :: rest) := by
  have hmargin : (Row.line number ⟨depth, ph⟩).margin? = some (4 * depth) := rfl
  rw [chain_cons_of_counted _ (Row.isCounted_line number ⟨depth, ph⟩), if_pos hmargin]
  rfl

theorem chain_lines_done (depth number : Nat) (next : Forest) {tail : List Line}
    (htail : ∀ l ∈ tail, l.Blank) :
    chain (some (4 * depth)) (Row.lines number (next.rows depth) ++ tail) =
      ([], Row.lines number (next.rows depth) ++ tail) := by
  cases next with
  | nil =>
      apply chain_of_dropWhile_eq_nil
      rw [Forest.rows, Row.lines, List.nil_append, List.dropWhile_eq_nil_iff]
      intro l hl
      simp [(htail l hl).isCounted]
  | cons first more =>
      obtain ⟨ph, rows, hrows, hph⟩ := Tree.head_rows depth first
      rw [Forest.rows, hrows, List.cons_append, Row.lines, List.cons_append, chain_lines_cons]
      cases ph with
      | elseIf condition => cases hph
      | otherwise => cases hph
      | _ => rfl

end Clause

namespace Staging

variable {σ : Type} {e : Staging σ} {s : Setting σ}

/-- The chain behind an `if`, gone through as the machine does. -/
def chainVisit (limit depth : Nat) (lines : List Line) (chosen : Option (List Line)) (p : Progress σ) :
    Except (Stop σ) (Visit σ) := do
  let (chosen, p) ← Clause.choose limit (Clause.chain (some (4 * depth)) lines).1 chosen p
  .ok ⟨p, (Clause.chain (some (4 * depth)) lines).2, chosen.map .once⟩

/-- The clauses of a plan come to the same as the lines of a chain, whatever was chosen before them. -/
def Chained (e : Staging σ) (room depth number : Nat) (others : Branches) (number' : Nat) (next : Forest)
    (lines : List Line) : Prop :=
  ∀ (chosen : Option (Nat × Forest)) (block : Option (List Line)), Option.Rel Forest.ShownAt chosen block →
    ∀ p, e.Reached room (others.eval e room number chosen p) number' next
      (chainVisit e.limit depth lines block p)

theorem rel_ite {number : Nat} {body : Forest} {lines : List Line} (hbody : body.Shown number lines)
    (b : Bool) :
    Option.Rel Forest.ShownAt (if b then some (number, body) else none) (if b then some lines else none) := by
  cases b with
  | true => exact .some hbody
  | false => exact .none

theorem chained_otherwise (e : Staging σ) (room depth number : Nat) {first : Tree} {more next : Forest}
    {number' : Nat} {rest : List Line}
    (hbody : (Forest.cons first more).Shown (number + 1) (Line.block rest))
    (hnext : next.Shown number' (Line.afterBlock rest)) :
    e.Chained room depth number (.otherwise first more) number' next
      (Row.line number ⟨depth, .otherwise⟩ :: rest) := by
  intro chosen block hchosen p
  rw [Branches.eval.eq_def, chainVisit, Clause.chain_lines_cons]
  dsimp only [Phrase.statement]
  rw [Clause.choose, bind_assoc]
  refine reached_bind fun q => ?_
  cases hchosen with
  | some hchosen => exact reached_enter room hnext (.some hchosen) q
  | none => exact reached_enter room hnext (.some hbody) q

theorem chained_elseIf {room depth number : Nat} (condition : Word) {first : Tree} {more next : Forest}
    {others : Branches} {number' : Nat} {rest : List Line}
    (hbody : (Forest.cons first more).Shown (number + 1) (Line.block rest))
    (hothers : e.Chained room depth (number + 1 + (Forest.cons first more).height) others number' next
      (Line.afterBlock rest)) :
    e.Chained room depth number (.elseIf condition first more others) number' next
      (Row.line number ⟨depth, .elseIf condition⟩ :: rest) := by
  intro chosen block hchosen p
  rw [Branches.eval.eq_def, chainVisit, Clause.chain_lines_cons]
  dsimp only [Phrase.statement]
  rw [Clause.choose, bind_assoc]
  refine reached_bind fun q => ?_
  cases hchosen with
  | some hchosen => exact hothers _ _ (.some hchosen) q
  | none =>
      dsimp only [Clause.applies]
      rw [bind_assoc]
      cases q.resolve number condition.name with
      | error stop => exact rfl
      | ok c => exact hothers _ _ (rel_ite hbody (c.holds q.world)) q

/-- Going through a chain on the machine is going through the clauses of the plan. -/
theorem chained_lines (e : Staging σ) (room depth : Nat) (next : Forest) :
    (others : Branches) → (number : Nat) → {tail : List Line} → (∀ l ∈ tail, l.Blank) →
    e.Chained room depth number others (number + (others.rows depth).length) next
      (Row.lines number (others.rows depth ++ next.rows depth) ++ tail)
  | .done, number, tail, htail => by
      intro chosen block hchosen p
      rw [Branches.eval.eq_def, chainVisit, Branches.rows, List.nil_append,
        Clause.chain_lines_done depth number next htail]
      exact reached_enter room (next.shown_lines depth number htail) hchosen p
  | .otherwise first more, number, tail, htail => by
      obtain ⟨hbody, tail', htail', hafter⟩ :=
        Line.block_lines depth (number + 1) first more (next.head_rows depth) htail
      have hnumber : number + ((Branches.otherwise first more).rows depth).length =
          number + 1 + (Forest.cons first more).height := by
        rw [← Forest.length_rows (depth + 1)]
        simp only [Branches.rows, Forest.rows, List.length_cons]
        omega
      have hnext := next.shown_lines depth (number + 1 + (Forest.cons first more).height) htail'
      rw [← hafter] at hnext
      rw [hnumber]
      exact chained_otherwise e room depth number hbody hnext
  | .elseIf condition first more others, number, tail, htail => by
      obtain ⟨hbody, tail', htail', hafter⟩ :=
        Line.block_lines depth (number + 1) first more (others.head_rows depth next) htail
      have hnumber : number + ((Branches.elseIf condition first more others).rows depth).length =
          number + 1 + (Forest.cons first more).height + (others.rows depth).length := by
        rw [← Forest.length_rows (depth + 1)]
        simp only [Branches.rows, Forest.rows, List.length_cons, List.length_append]
        omega
      have hlines : Row.lines number ((Branches.elseIf condition first more others).rows depth ++
            next.rows depth) ++ tail =
          Row.line number ⟨depth, .elseIf condition⟩ :: (Row.lines (number + 1)
            ((Forest.cons first more).rows (depth + 1) ++ (others.rows depth ++ next.rows depth)) ++ tail) := by
        simp only [Branches.rows, Forest.rows, Row.lines, List.cons_append, List.append_assoc]
      rw [hnumber, hlines]
      refine chained_elseIf condition hbody ?_
      rw [hafter]
      exact chained_lines e room depth next others _ htail'

theorem reached_branch (hlimit : s.limit = e.limit) {room depth number : Nat} (condition : Word)
    {first : Tree} {more next : Forest} {others : Branches} {number' : Nat} {rest : List Line}
    (hbody : (Forest.cons first more).Shown (number + 1) (Line.block rest))
    (hothers : e.Chained room depth (number + 1 + (Forest.cons first more).height) others number' next
      (Line.afterBlock rest)) (p : Progress σ) :
    e.Reached room ((Tree.branch condition first more others).eval e room number p) number' next
      (s.visit (Row.line number ⟨depth, .branch condition⟩) rest p) := by
  rw [Tree.eval, Setting.visit, hlimit]
  refine reached_bind fun q => ?_
  change e.Reached _ _ _ _
    (s.enterBranch (Row.line number ⟨depth, .branch condition⟩) rest condition.name q)
  rw [Setting.enterBranch, hlimit]
  refine reached_bind fun c => ?_
  exact hothers _ _ (rel_ite hbody (c.holds q.world)) q

theorem reached_tree (hmatches : e.Matches s) (room depth number : Nat) (t : Tree) (next : Forest)
    {tail : List Line} (htail : ∀ l ∈ tail, l.Blank) (p : Progress σ) :
    ∃ l rest, Row.lines number ((Forest.cons t next).rows depth) ++ tail = l :: rest ∧
      e.Reached room (t.eval e room number p) (number + t.height) next (s.visit l rest p) := by
  cases t with
  | call name =>
      refine ⟨_, _, rfl, ?_⟩
      exact reached_call hmatches room depth number name (next.shown_lines depth (number + 1) htail) p
  | loop condition first more =>
      obtain ⟨hbody, tail', htail', hafter⟩ :=
        Line.block_lines depth (number + 1) first more (next.head_rows depth) htail
      have hheight : number + (Tree.loop condition first more).height =
          number + 1 + (Forest.cons first more).height := by
        rw [← Forest.length_rows (0 + 1)]
        simp only [Tree.height, Tree.rows, Forest.rows, List.length_cons]
        omega
      have hnext := next.shown_lines depth (number + 1 + (Forest.cons first more).height) htail'
      rw [← hafter] at hnext
      refine ⟨_, _, rfl, ?_⟩
      rw [hheight]
      exact reached_loop hmatches.limit room depth number condition first more hbody hnext p
  | branch condition first more others =>
      obtain ⟨hbody, tail', htail', hafter⟩ :=
        Line.block_lines depth (number + 1) first more (others.head_rows depth next) htail
      have hheight : number + (Tree.branch condition first more others).height =
          number + 1 + (Forest.cons first more).height + (others.rows depth).length := by
        rw [← Forest.length_rows (0 + 1), Branches.length_rows depth]
        simp only [Tree.height, Tree.rows, Forest.rows, List.length_cons, List.length_append]
        omega
      have hlines : Row.lines number ((Forest.cons (.branch condition first more others) next).rows depth) ++
            tail =
          Row.line number ⟨depth, .branch condition⟩ :: (Row.lines (number + 1)
            ((Forest.cons first more).rows (depth + 1) ++ (others.rows depth ++ next.rows depth)) ++ tail) := by
        simp only [Tree.rows, Forest.rows, Row.lines, List.cons_append, List.append_assoc]
      refine ⟨_, _, hlines, ?_⟩
      rw [hheight]
      refine reached_branch hmatches.limit condition hbody ?_ p
      rw [hafter]
      exact chained_lines e room depth next others _ htail'

end Staging

end GridRobot
