import GridRobot.Proofs.Except
import GridRobot.Proofs.Script.Line
import GridRobot.Run.Outcome

/-!
# What a visit comes to

The machine does all its work when it visits a line that is counted. Here is everything the rest of the
theory knows about that: `Visited` lists what holds of a line that was carried out, and `Refuses` the
reasons for which a line can end the run. A visit counts lines and carries out at most one command, and
the command comes last, so a line that is refused leaves the world, the history and the observer as they
were.
-/

namespace GridRobot

/-! ### Blocks and chains lie in the lines they are cut from -/

namespace Line

theorem afterBlock_suffix (lines : List Line) : afterBlock lines <:+ lines := List.drop_suffix _ _

theorem block_isInfix (lines : List Line) : block lines <:+: lines :=
  ⟨[], afterBlock lines, by simpa using block_append_afterBlock lines⟩

end Line

namespace Clause

theorem chain_suffix (margin : Option Nat) (lines : List Line) : (chain margin lines).2 <:+ lines := by
  fun_induction chain margin lines with
  | case1 lines _ => exact List.suffix_refl _
  | case2 lines l rest hdrop _ c _ more ih =>
      have hrest : rest <:+ lines :=
        (List.suffix_cons l rest).trans (hdrop ▸ List.dropWhile_suffix _)
      exact ih.trans ((Line.afterBlock_suffix rest).trans hrest)
  | case3 lines l rest hdrop _ _ =>
      have hrest : rest <:+ lines :=
        (List.suffix_cons l rest).trans (hdrop ▸ List.dropWhile_suffix _)
      exact (Line.afterBlock_suffix rest).trans hrest
  | case4 => exact List.suffix_refl _
  | case5 => exact List.suffix_refl _

/-- A clause and the line it was read from. -/
def ReadFrom (c : Clause) (l : Line) : Prop :=
  l.number = c.number ∧ l.isCounted = true ∧ ∀ condition, c.guard = some condition →
    l.statement = .elifBranch condition

theorem chain_mem {margin : Option Nat} {lines : List Line} {c : Clause}
    (hc : c ∈ (chain margin lines).1) :
    (∃ l ∈ lines, c.ReadFrom l) ∧ c.body <:+: lines := by
  fun_induction chain margin lines with
  | case1 | case4 | case5 => simp at hc
  | case2 lines l rest hdrop _ condition hstatement more ih =>
      have hlines : l :: rest <:+ lines := hdrop ▸ List.dropWhile_suffix _
      have hrest : rest <:+ lines := (List.suffix_cons l rest).trans hlines
      rcases List.mem_cons.1 hc with rfl | hc
      · refine ⟨⟨l, hlines.subset List.mem_cons_self, rfl, ?_, ?_⟩, ?_⟩
        · rw [Line.isCounted, hstatement]
          rfl
        · intro _ hguard
          cases hguard
          exact hstatement
        · exact (Line.block_isInfix rest).trans hrest.isInfix
      · obtain ⟨⟨l', hl', hread⟩, hbody⟩ := ih hc
        have hafter := (Line.afterBlock_suffix rest).trans hrest
        exact ⟨⟨l', hafter.subset hl', hread⟩, hbody.trans hafter.isInfix⟩
  | case3 lines l rest hdrop _ hstatement =>
      have hlines : l :: rest <:+ lines := hdrop ▸ List.dropWhile_suffix _
      have hrest : rest <:+ lines := (List.suffix_cons l rest).trans hlines
      rw [List.mem_singleton] at hc
      subst hc
      refine ⟨⟨l, hlines.subset List.mem_cons_self, rfl, ?_, ?_⟩, ?_⟩
      · rw [Line.isCounted, hstatement]
        rfl
      · intro _ hguard
        cases hguard
      · exact (Line.block_isInfix rest).trans hrest.isInfix

end Clause

/-- The three errors of commands, each with the command that has it. -/
theorem Command.apply_error {w : World} {action : Command} {error : RunError}
    (h : action.apply w = .error error) :
    (action = .move ∧ error = .movementBlocked w.agent) ∨
      (action = .pickBeeper ∧ error = .noBeeperHere w.agent.cell) ∨
      (action = .putBeeper ∧ error = .bagEmpty) := by
  cases action with
  | move =>
      simp only [apply, moved] at h
      split at h
      · cases h
        exact .inl ⟨rfl, rfl⟩
      · split at h
        · cases h
        · cases h
          exact .inl ⟨rfl, rfl⟩
  | turnLeft => cases h
  | pickBeeper =>
      simp only [apply, picked] at h
      split at h
      · cases h
      · cases h
        exact .inr (.inl ⟨rfl, rfl⟩)
  | putBeeper =>
      simp only [apply, put] at h
      split at h
      · cases h
      · cases h
        exact .inr (.inr ⟨rfl, rfl⟩)

namespace Progress

variable {σ : Type}

/-- Some lines further on: nothing but the count and the place has changed. -/
structure Ahead (p q : Progress σ) : Prop where
  world : q.world = p.world
  history : q.history = p.history
  seen : q.seen = p.seen
  steps : p.steps ≤ q.steps

theorem Ahead.refl (p : Progress σ) : p.Ahead p := ⟨rfl, rfl, rfl, Nat.le_refl _⟩

theorem Ahead.trans {p q r : Progress σ} (h : p.Ahead q) (h' : q.Ahead r) : p.Ahead r :=
  ⟨h'.world.trans h.world, h'.history.trans h.history, h'.seen.trans h.seen,
    Nat.le_trans h.steps h'.steps⟩

theorem ahead_count (p : Progress σ) (number : Nat) : p.Ahead (p.count number) :=
  ⟨rfl, rfl, rfl, Nat.le_succ _⟩

theorem eq_count_of_visit {limit number : Nat} {p q : Progress σ} (h : p.visit limit number = .ok q) :
    q = p.count number ∧ p.steps + 1 ≤ limit := by
  unfold visit at h
  split at h
  · cases h
  · next hle =>
      cases h
      exact ⟨rfl, Nat.le_of_not_lt hle⟩

theorem eq_stepLimit_of_visit {limit number : Nat} {p : Progress σ} {stop : Stop σ}
    (h : p.visit limit number = .error stop) :
    stop = ⟨.stepLimit limit, p.count number⟩ ∧ limit < p.steps + 1 := by
  unfold visit at h
  split at h
  · next hlt =>
      cases h
      exact ⟨rfl, hlt⟩
  · cases h

theorem eq_unknownCondition_of_resolve {number : Nat} {condition : String} {p : Progress σ}
    {stop : Stop σ} (h : p.resolve number condition = .error stop) :
    stop = ⟨.unknownCondition condition number, p⟩ ∧ Condition.ofName? condition = none := by
  unfold resolve at h
  split at h
  · cases h
  · next hname =>
      cases h
      exact ⟨rfl, hname⟩

theorem apply_eq_error_of_perform {observe : σ → Entry → σ} {action : Command} {p : Progress σ}
    {stop : Stop σ} (h : p.perform observe action = .error stop) :
    stop.progress = p ∧ action.apply p.world = .error stop.error := by
  unfold perform at h
  split at h
  · cases h
  · next herror =>
      cases h
      exact ⟨rfl, herror⟩

end Progress

/-- Why a line ends a run, and the progress it ends it with. -/
inductive Setting.Refuses {σ : Type} (s : Setting σ) (l : Line) (p : Progress σ) : RunError → Prop where
  | limit (hl : l.isCounted = true) (hsteps : p.steps = s.limit + 1) :
      s.Refuses l p (.stepLimit s.limit)
  | condition {condition : String} (hsteps : p.steps ≤ s.limit)
      (hstatement : l.statement = .whileLoop condition ∨ l.statement = .ifBranch condition ∨
        l.statement = .elifBranch condition)
      (hname : Condition.ofName? condition = none) :
      s.Refuses l p (.unknownCondition condition l.number)
  | loop {condition : String} (hsteps : p.steps ≤ s.limit)
      (hstatement : l.statement = .whileLoop condition) : s.Refuses l p (.emptyLoop s.limit)
  | name {name : String} (hsteps : p.steps ≤ s.limit) (hstatement : l.statement = .call name)
      (haction : Command.ofName? name = none) (hbody : s.code.body? name = none)
      (hidle : name ∉ idleCalls) (hcondition : Condition.ofName? name = none) :
      s.Refuses l p (.unknownCommand name l.number)
  | action {name : String} {action : Command} {error : RunError} (hsteps : p.steps ≤ s.limit)
      (hstatement : l.statement = .call name) (haction : Command.ofName? name = some action)
      (herror : action.apply p.world = .error error) : s.Refuses l p error

/-- The line `l` ends a run that was at `p`. -/
structure Setting.StopsAt {σ : Type} (s : Setting σ) (l : Line) (p : Progress σ) (stop : Stop σ) : Prop where
  refuses : s.Refuses l stop.progress stop.error
  line : stop.progress.line = some l.number
  ahead : p.Ahead stop.progress

theorem Setting.StopsAt.of_ahead {σ : Type} {s : Setting σ} {l : Line} {p q : Progress σ} {stop : Stop σ}
    (hstop : s.StopsAt l q stop) (hahead : p.Ahead q) : s.StopsAt l p stop :=
  ⟨hstop.refuses, hstop.line, hahead.trans hstop.ahead⟩

/-- What holds of a line that was carried out, with the lines `rest` behind it. -/
structure Setting.Visited {σ : Type} (s : Setting σ) (rest : List Line) (p : Progress σ) (v : Visit σ) :
    Prop where
  progress : ∃ q, p.Ahead q ∧
    (v.progress = q ∨ ∃ action, q.perform s.observe action = .ok v.progress)
  resume : v.resume <:+ rest
  entered : ∀ f, v.entered = some f → f.pending = f.body ∧
    (f.body <:+: rest ∨ ∃ name, s.code.body? name = some f.body)

namespace Clause

variable {σ : Type}

theorem choose_ok {limit : Nat} {cs : List Clause} {chosen chosen' : Option (List Line)}
    {p q : Progress σ} (h : choose limit cs chosen p = .ok (chosen', q)) :
    p.Ahead q ∧ (chosen' = chosen ∨ ∃ c ∈ cs, chosen' = some c.body) := by
  induction cs generalizing chosen p with
  | nil =>
      cases h
      exact ⟨.refl _, .inl rfl⟩
  | cons c cs ih =>
      rw [choose] at h
      obtain ⟨r, hr, h⟩ := bind_eq_ok h
      obtain ⟨rfl, -⟩ := Progress.eq_count_of_visit hr
      have hcount := p.ahead_count c.number
      cases chosen with
      | some body =>
          obtain ⟨hahead, hchosen⟩ := ih h
          refine ⟨hcount.trans hahead, ?_⟩
          rcases hchosen with hchosen | ⟨c', hc', hchosen⟩
          · exact .inl hchosen
          · exact .inr ⟨c', List.mem_cons_of_mem _ hc', hchosen⟩
      | none =>
          obtain ⟨applies, -, h⟩ := bind_eq_ok h
          obtain ⟨hahead, hchosen⟩ := ih h
          refine ⟨hcount.trans hahead, ?_⟩
          rcases hchosen with hchosen | ⟨c', hc', hchosen⟩
          · cases applies with
            | false => exact .inl hchosen
            | true => exact .inr ⟨c, List.mem_cons_self, hchosen⟩
          · exact .inr ⟨c', List.mem_cons_of_mem _ hc', hchosen⟩

theorem applies_error {c : Clause} {p : Progress σ} {stop : Stop σ} (h : c.applies p = .error stop) :
    ∃ condition, c.guard = some condition ∧ Condition.ofName? condition = none ∧
      stop = ⟨.unknownCondition condition c.number, p⟩ := by
  unfold applies at h
  split at h
  · next condition hguard =>
      cases hresolve : p.resolve c.number condition with
      | ok found =>
          rw [hresolve] at h
          cases h
      | error stop' =>
          rw [hresolve] at h
          cases h
          obtain ⟨hstop, hname⟩ := Progress.eq_unknownCondition_of_resolve hresolve
          exact ⟨condition, hguard, hname, hstop⟩
  · cases h

theorem choose_error {s : Setting σ} {cs : List Clause} {chosen : Option (List Line)} {p : Progress σ}
    {stop : Stop σ} (h : choose s.limit cs chosen p = .error stop) (hp : p.steps ≤ s.limit) :
    ∃ c ∈ cs, ∀ l, c.ReadFrom l → s.StopsAt l p stop := by
  induction cs generalizing chosen p with
  | nil => cases h
  | cons c cs ih =>
      rw [choose] at h
      rcases bind_eq_error h with h | ⟨r, hr, h⟩
      · obtain ⟨rfl, hlt⟩ := Progress.eq_stepLimit_of_visit h
        refine ⟨c, List.mem_cons_self, fun l hread => ⟨.limit hread.2.1 ?_, ?_, p.ahead_count _⟩⟩
        · change p.steps + 1 = s.limit + 1
          omega
        · rw [hread.1]
          rfl
      · obtain ⟨rfl, hle⟩ := Progress.eq_count_of_visit hr
        have hlater : ∀ {chosen : Option (List Line)},
            choose s.limit cs chosen (p.count c.number) = .error stop →
            ∃ c' ∈ c :: cs, ∀ l, c'.ReadFrom l → s.StopsAt l p stop := by
          intro chosen h
          obtain ⟨c', hc', hstop⟩ := ih h hle
          exact ⟨c', List.mem_cons_of_mem _ hc', fun l hread =>
            (hstop l hread).of_ahead (p.ahead_count c.number)⟩
        cases chosen with
        | some body => exact hlater h
        | none =>
            rcases bind_eq_error h with h | ⟨applies, -, h⟩
            · obtain ⟨condition, hguard, hname, rfl⟩ := applies_error h
              refine ⟨c, List.mem_cons_self, fun l hread => ⟨?_, ?_, p.ahead_count _⟩⟩
              · rw [← hread.1]
                exact .condition hle (.inr (.inr (hread.2.2 condition hguard))) hname
              · rw [hread.1]
                rfl
            · exact hlater h

end Clause

namespace Setting

variable {σ : Type} {s : Setting σ} {l : Line} {rest : List Line} {p : Progress σ} {v : Visit σ}
  {stop : Stop σ}

theorem enterLoop_ok {condition : String} (h : s.enterLoop l rest condition p = .ok v) :
    s.Visited rest p v := by
  obtain ⟨c, -, h⟩ := bind_eq_ok h
  split at h
  · split at h
    · next hcounts =>
        cases h
        refine ⟨⟨p, .refl p, .inl rfl⟩, Line.afterBlock_suffix rest, ?_⟩
        intro f hf
        cases hf
        exact ⟨rfl, .inl (Line.block_isInfix rest)⟩
    · cases h
  · cases h
    refine ⟨⟨p, .refl p, .inl rfl⟩, Line.afterBlock_suffix rest, ?_⟩
    intro f hf
    cases hf

theorem enterLoop_error {condition : String} (h : s.enterLoop l rest condition p = .error stop)
    (hstatement : l.statement = .whileLoop condition) (hsteps : p.steps ≤ s.limit)
    (hline : p.line = some l.number) : s.StopsAt l p stop := by
  rcases bind_eq_error h with h | ⟨c, -, h⟩
  · obtain ⟨rfl, hname⟩ := Progress.eq_unknownCondition_of_resolve h
    exact ⟨.condition hsteps (.inl hstatement) hname, hline, .refl p⟩
  · split at h
    · split at h
      · cases h
      · cases h
        exact ⟨.loop hsteps hstatement, hline, .refl p⟩
    · cases h

theorem enterBranch_ok {condition : String} (h : s.enterBranch l rest condition p = .ok v) :
    s.Visited rest p v := by
  obtain ⟨c, -, h⟩ := bind_eq_ok h
  obtain ⟨⟨chosen, q⟩, hchoose, h⟩ := bind_eq_ok h
  cases h
  obtain ⟨hahead, hchosen⟩ := Clause.choose_ok hchoose
  have hafter := Line.afterBlock_suffix rest
  refine ⟨⟨q, hahead, .inl rfl⟩, (Clause.chain_suffix _ _).trans hafter, ?_⟩
  intro f hf
  obtain ⟨body, hbody, rfl⟩ := Option.map_eq_some_iff.1 hf
  refine ⟨rfl, .inl ?_⟩
  change body <:+: rest
  rcases hchosen with hchosen | ⟨c', hc', hchosen⟩
  · rw [hbody] at hchosen
    split at hchosen
    · cases hchosen
      exact Line.block_isInfix rest
    · cases hchosen
  · rw [hbody] at hchosen
    cases hchosen
    exact (Clause.chain_mem hc').2.trans hafter.isInfix

theorem enterBranch_error {condition : String} (h : s.enterBranch l rest condition p = .error stop)
    (hstatement : l.statement = .ifBranch condition) (hsteps : p.steps ≤ s.limit)
    (hline : p.line = some l.number) : ∃ l' ∈ l :: rest, s.StopsAt l' p stop := by
  rcases bind_eq_error h with h | ⟨c, -, h⟩
  · obtain ⟨rfl, hname⟩ := Progress.eq_unknownCondition_of_resolve h
    exact ⟨l, List.mem_cons_self, .condition hsteps (.inr (.inl hstatement)) hname, hline, .refl p⟩
  · rcases bind_eq_error h with h | ⟨_, -, h⟩
    · obtain ⟨c', hc', hstop⟩ := Clause.choose_error h hsteps
      obtain ⟨⟨l', hl', hread⟩, -⟩ := Clause.chain_mem hc'
      have hmem : l' ∈ rest := (Line.afterBlock_suffix rest).subset hl'
      exact ⟨l', List.mem_cons_of_mem _ hmem, hstop l' hread⟩
    · cases h

theorem enterCall_ok {name : String} (h : s.enterCall l rest name p = .ok v) :
    s.Visited rest p v := by
  unfold enterCall at h
  split at h
  · next action _ =>
      cases hperform : p.perform s.observe action with
      | error stop =>
          rw [hperform] at h
          cases h
      | ok q =>
          rw [hperform] at h
          cases h
          refine ⟨⟨p, .refl p, .inr ⟨action, hperform⟩⟩, List.suffix_refl _, ?_⟩
          intro f hf
          cases hf
  · split at h
    · next body hbody =>
        cases h
        refine ⟨⟨p, .refl p, .inl rfl⟩, List.suffix_refl _, ?_⟩
        intro f hf
        cases hf
        exact ⟨rfl, .inr ⟨name, hbody⟩⟩
    · split at h
      · cases h
        refine ⟨⟨p, .refl p, .inl rfl⟩, List.suffix_refl _, ?_⟩
        intro f hf
        cases hf
      · cases h

theorem enterCall_error {name : String} (h : s.enterCall l rest name p = .error stop)
    (hstatement : l.statement = .call name) (hsteps : p.steps ≤ s.limit)
    (hline : p.line = some l.number) : s.StopsAt l p stop := by
  unfold enterCall at h
  split at h
  · next action haction =>
      cases hperform : p.perform s.observe action with
      | ok q =>
          rw [hperform] at h
          cases h
      | error stop' =>
          rw [hperform] at h
          cases h
          obtain ⟨hprogress, herror⟩ := Progress.apply_eq_error_of_perform hperform
          have hrefuses : s.Refuses l p stop.error := .action hsteps hstatement haction herror
          exact ⟨hprogress ▸ hrefuses, hprogress ▸ hline, hprogress ▸ .refl p⟩
  · next haction =>
      split at h
      · cases h
      · next hbody =>
          split at h
          · cases h
          · next hidle =>
              cases h
              simp only [Bool.or_eq_true, List.contains_iff_mem, Option.isSome_iff_ne_none,
                not_or, Decidable.not_not] at hidle
              exact ⟨.name hsteps hstatement haction hbody hidle.1 hidle.2, hline, .refl p⟩

/-- Everything that is known of a line that was carried out. -/
theorem visit_ok (h : s.visit l rest p = .ok v) : s.Visited rest p v := by
  obtain ⟨q, hq, h⟩ := bind_eq_ok h
  obtain ⟨rfl, -⟩ := Progress.eq_count_of_visit hq
  have hvisited : s.Visited rest (p.count l.number) v := by
    split at h
    · exact enterLoop_ok h
    · exact enterBranch_ok h
    · exact enterCall_ok h
    · cases h
      refine ⟨⟨_, .refl _, .inl rfl⟩, List.suffix_refl _, ?_⟩
      intro f hf
      cases hf
  obtain ⟨⟨q, hahead, hprogress⟩, hresume, hentered⟩ := hvisited
  exact ⟨⟨q, (p.ahead_count l.number).trans hahead, hprogress⟩, hresume, hentered⟩

/-- Everything that is known of a line that ended the run, or had the run end in a later clause. -/
theorem visit_error (h : s.visit l rest p = .error stop) (hl : l.isCounted = true)
    (hp : p.steps ≤ s.limit) : ∃ l' ∈ l :: rest, s.StopsAt l' p stop := by
  have hcount := p.ahead_count l.number
  rcases bind_eq_error h with h | ⟨q, hq, h⟩
  · obtain ⟨rfl, hlt⟩ := Progress.eq_stepLimit_of_visit h
    refine ⟨l, List.mem_cons_self, .limit hl ?_, rfl, hcount⟩
    change p.steps + 1 = s.limit + 1
    omega
  · obtain ⟨rfl, hle⟩ := Progress.eq_count_of_visit hq
    split at h
    · next hstatement =>
        exact ⟨l, List.mem_cons_self, (enterLoop_error h hstatement hle rfl).of_ahead hcount⟩
    · next hstatement =>
        obtain ⟨l', hl', hstop⟩ := enterBranch_error h hstatement hle rfl
        exact ⟨l', hl', hstop.of_ahead hcount⟩
    · next hstatement =>
        exact ⟨l, List.mem_cons_self, (enterCall_error h hstatement hle rfl).of_ahead hcount⟩
    · cases h

end Setting

end GridRobot
