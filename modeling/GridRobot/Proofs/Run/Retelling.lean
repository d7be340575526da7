import GridRobot.Proofs.Run.Limit
import GridRobot.Proofs.Run.Recursive
import GridRobot.Proofs.Script.Line

/-!
# Runs told again

A run can be told again with the blank lines of its code left away, its lines under other numbers, and
what an observer keeps turned into something else. Nothing else about it changes. The machine passes over a
blank line without counting it, so such a turn has no counterpart in the run that is told, and every other
turn has one. `Retelling.run` says so of whole runs.

Two programs that become the same when they are tidied therefore have the same runs up to the numbers of
their lines, whoever watches (`Program.renumber_runObserved`).
-/

namespace GridRobot

/-! ### Results -/

/-- The error with the line that it mentions under another number. -/
def RunError.renumber (number : Nat → Nat) : RunError → RunError
  | .unknownCommand name line => .unknownCommand name (number line)
  | .unknownCondition condition line => .unknownCondition condition (number line)
  | error => error

def Failure.renumber (number : Nat → Nat) (f : Failure) : Failure :=
  { f with error := f.error.renumber number, line := f.line.map number }

/-- The result with the lines that a failure mentions under other numbers. -/
def RunResult.renumber (number : Nat → Nat) (result : RunResult) : RunResult :=
  result.mapError (Failure.renumber number)

theorem RunError.renumber_id (error : RunError) : error.renumber id = error := by
  cases error <;> rfl

theorem RunResult.renumber_id (result : RunResult) : RunResult.renumber id result = result := by
  cases result with
  | ok outcome => rfl
  | error failure =>
      show Except.error (Failure.renumber id failure) = Except.error failure
      rw [Failure.renumber, RunError.renumber_id, Option.map_id]
      rfl

theorem RunError.renumber_of_apply {w : World} {action : Command} {error : RunError}
    (h : action.apply w = .error error) (number : Nat → Nat) : error.renumber number = error := by
  rcases Command.apply_error h with ⟨-, rfl⟩ | ⟨-, rfl⟩ | ⟨-, rfl⟩ <;> rfl

/-! ### Chains -/

namespace Clause

def tidy (number : Nat → Nat) (c : Clause) : Clause :=
  ⟨number c.number, c.guard, Line.tidy number c.body⟩

theorem chain_tidy (number : Nat → Nat) (margin : Option Nat) (lines : List Line) :
    chain margin (Line.tidy number lines) =
      ((chain margin lines).1.map (tidy number), Line.tidy number (chain margin lines).2) := by
  fun_induction chain margin lines with
  | case1 lines hdrop =>
      have hnil := Line.dropWhile_not_isCounted_tidy number lines
      rw [hdrop, Line.tidy_nil] at hnil
      rw [chain_of_dropWhile_eq_nil margin hnil]
      rfl
  | case2 lines l rest hdrop hmargin c hstatement more ih =>
      rw [chain_of_dropWhile_eq_cons margin (Line.dropWhile_tidy_of_eq_cons number hdrop),
        Line.margin?_renumber, Line.statement_renumber, if_pos hmargin, hstatement, Line.afterBlock_tidy,
        ih, Line.block_tidy]
      rfl
  | case3 lines l rest hdrop hmargin hstatement =>
      rw [chain_of_dropWhile_eq_cons margin (Line.dropWhile_tidy_of_eq_cons number hdrop),
        Line.margin?_renumber, Line.statement_renumber, if_pos hmargin, hstatement, Line.afterBlock_tidy,
        Line.block_tidy]
      rfl
  | case4 lines l rest hdrop hmargin hnotElif hnotElse =>
      rw [chain_of_dropWhile_eq_cons margin (Line.dropWhile_tidy_of_eq_cons number hdrop),
        Line.margin?_renumber, Line.statement_renumber, if_pos hmargin]
      split
      · next c hc => exact absurd hc (hnotElif c)
      · next hc => exact absurd hc hnotElse
      · rfl
  | case5 lines l rest hdrop hmargin =>
      rw [chain_of_dropWhile_eq_cons margin (Line.dropWhile_tidy_of_eq_cons number hdrop),
        Line.margin?_renumber, if_neg hmargin]
      rfl

end Clause

/-! ### Tellings -/

/-- The frame with its lines tidied. -/
def Frame.tidy (number : Nat → Nat) (f : Frame) : Frame where
  body := Line.tidy number f.body
  pending := Line.tidy number f.pending
  again := f.again
  counts hagain := (Line.any_isCounted_tidy number f.body).trans (f.counts hagain)

/-- How a run is told again: the numbers that its lines get, and what becomes of what its observer keeps. -/
structure Retelling (σ τ : Type) where
  number : Nat → Nat
  seen : σ → τ

namespace Retelling

variable {σ τ α β γ δ : Type} (r : Retelling σ τ)

def progress (p : Progress σ) : Progress τ :=
  ⟨p.world, p.history, p.steps, p.line.map r.number, r.seen p.seen⟩

def stop (x : Stop σ) : Stop τ := ⟨x.error.renumber r.number, r.progress x.progress⟩

def visit (v : Visit σ) : Visit τ :=
  ⟨r.progress v.progress, Line.tidy r.number v.resume, v.entered.map (Frame.tidy r.number)⟩

def machine (m : Machine σ) : Machine τ := ⟨r.progress m.progress, m.frames.map (Frame.tidy r.number)⟩

def turn : Turn σ → Turn τ
  | .running m => .running (r.machine m)
  | .finished => .finished
  | .stopped x => .stopped (r.stop x)

/-- What a part of a run comes to, told again. -/
def part (tell : α → β) (x : Except (Stop σ) α) : Except (Stop τ) β := (x.map tell).mapError r.stop

theorem part_bind {tell : α → β} {tell' : γ → δ} {x : Except (Stop σ) α}
    {next : α → Except (Stop σ) γ} {next' : β → Except (Stop τ) δ}
    (h : ∀ a, next' (tell a) = r.part tell' (next a)) :
    r.part tell x >>= next' = r.part tell' (x >>= next) := by
  cases x with
  | error stop => rfl
  | ok a => exact h a

/-! ### Lines and chains -/

theorem visit_line (limit number : Nat) (p : Progress σ) :
    (r.progress p).visit limit (r.number number) = r.part r.progress (p.visit limit number) := by
  unfold Progress.visit
  by_cases hlt : limit < p.steps + 1
  · have htold : limit < (r.progress p).steps + 1 := hlt
    rw [if_pos hlt, if_pos htold]
    rfl
  · have htold : ¬ limit < (r.progress p).steps + 1 := hlt
    rw [if_neg hlt, if_neg htold]
    rfl

theorem resolve (number : Nat) (condition : String) (p : Progress σ) :
    (r.progress p).resolve (r.number number) condition = r.part id (p.resolve number condition) := by
  unfold Progress.resolve
  cases Condition.ofName? condition with
  | some c => rfl
  | none => rfl

theorem applies (c : Clause) (p : Progress σ) :
    (c.tidy r.number).applies (r.progress p) = r.part id (c.applies p) := by
  unfold Clause.applies
  have hguard : (c.tidy r.number).guard = c.guard := rfl
  rw [hguard]
  cases c.guard with
  | none => rfl
  | some condition =>
      dsimp only [Clause.tidy]
      rw [r.resolve]
      cases p.resolve c.number condition with
      | ok found => rfl
      | error stop => rfl

theorem choose (limit : Nat) (cs : List Clause) (chosen : Option (List Line)) (p : Progress σ) :
    Clause.choose limit (cs.map (Clause.tidy r.number)) (chosen.map (Line.tidy r.number)) (r.progress p) =
      r.part (Prod.map (Option.map (Line.tidy r.number)) r.progress) (Clause.choose limit cs chosen p) := by
  induction cs generalizing chosen p with
  | nil => rfl
  | cons c cs ih =>
      rw [List.map_cons, Clause.choose, Clause.choose]
      show (r.progress p).visit limit (r.number c.number) >>= _ = _
      rw [r.visit_line]
      apply r.part_bind
      intro q
      cases chosen with
      | some body => exact ih (some body) q
      | none =>
          dsimp only [Option.map_none]
          rw [r.applies]
          apply r.part_bind
          intro applies
          cases applies with
          | true => exact ih (some c.body) q
          | false => exact ih none q

/-! ### Visits -/

/-- A setting in which a run is told: it holds the tidied code, and its observer is shown the same. -/
structure Tells (s : Setting σ) (s' : Setting τ) : Prop where
  body? : ∀ name, s'.code.body? name = (s.code.body? name).map (Line.tidy r.number)
  limit : s'.limit = s.limit
  observe : ∀ x e, s'.observe (r.seen x) e = r.seen (s.observe x e)

variable {r} {s : Setting σ} {s' : Setting τ} (hs : r.Tells s s') {l : Line} {rest : List Line}
  {p : Progress σ}

include hs

theorem perform (action : Command) :
    (r.progress p).perform s'.observe action = r.part r.progress (p.perform s.observe action) := by
  have hworld : (r.progress p).world = p.world := rfl
  unfold Progress.perform
  rw [hworld]
  cases haction : action.apply p.world with
  | ok world =>
      show Except.ok (Progress.mk _ _ _ _ (s'.observe (r.seen p.seen) _)) = _
      rw [hs.observe]
      rfl
  | error e =>
      show Except.error _ = Except.error (r.stop ⟨e, p⟩)
      rw [stop, RunError.renumber_of_apply haction]

theorem enterLoop (condition : String) :
    s'.enterLoop (l.renumber r.number) (Line.tidy r.number rest) condition (r.progress p) =
      r.part r.visit (s.enterLoop l rest condition p) := by
  unfold Setting.enterLoop
  show (r.progress p).resolve (r.number l.number) condition >>= _ = _
  rw [r.resolve]
  apply r.part_bind
  intro c
  have hworld : (r.progress p).world = p.world := rfl
  simp only [id, hworld, Line.block_tidy, Line.any_isCounted_tidy, Line.afterBlock_tidy, hs.limit]
  split
  · split
    · rfl
    · rfl
  · rfl

theorem enterBranch (condition : String) :
    s'.enterBranch (l.renumber r.number) (Line.tidy r.number rest) condition (r.progress p) =
      r.part r.visit (s.enterBranch l rest condition p) := by
  unfold Setting.enterBranch
  show (r.progress p).resolve (r.number l.number) condition >>= _ = _
  rw [r.resolve]
  apply r.part_bind
  intro c
  have hchosen : (if c.holds p.world then some (Line.tidy r.number (Line.block rest)) else none) =
      (if c.holds p.world then some (Line.block rest) else none).map (Line.tidy r.number) := by
    split <;> rfl
  have hworld : (r.progress p).world = p.world := rfl
  simp only [id, hworld, Line.margin?_renumber, Line.block_tidy, Line.afterBlock_tidy, Clause.chain_tidy,
    hs.limit, hchosen]
  rw [r.choose]
  apply r.part_bind
  intro ⟨chosen, q⟩
  cases chosen with
  | none => rfl
  | some body => rfl

theorem enterCall (name : String) :
    s'.enterCall (l.renumber r.number) (Line.tidy r.number rest) name (r.progress p) =
      r.part r.visit (s.enterCall l rest name p) := by
  unfold Setting.enterCall
  cases Command.ofName? name with
  | some action =>
      dsimp only
      rw [perform hs]
      cases p.perform s.observe action with
      | ok q => rfl
      | error stop => rfl
  | none =>
      dsimp only
      rw [hs.body?]
      cases s.code.body? name with
      | some body => rfl
      | none =>
          dsimp only [Option.map_none]
          split
          · rfl
          · rfl

theorem visit_told :
    s'.visit (l.renumber r.number) (Line.tidy r.number rest) (r.progress p) =
      r.part r.visit (s.visit l rest p) := by
  rw [Setting.visit_eq_carryOut, Setting.visit_eq_carryOut, hs.limit]
  show (r.progress p).visit s.limit (r.number l.number) >>= _ = _
  rw [r.visit_line]
  apply r.part_bind
  intro q
  unfold Setting.carryOut
  rw [Line.statement_renumber]
  split
  · exact enterLoop hs _
  · exact enterBranch hs _
  · exact enterCall hs _
  · rfl

/-! ### Runs -/

/-- A turn that passes over a blank line is not told, and every other turn is. -/
theorem turn_told (m : Machine σ) :
    (∃ m', m.turn s = .running m' ∧ r.machine m' = r.machine m) ∨
      (r.machine m).turn s' = r.turn (m.turn s) := by
  obtain ⟨p, frames⟩ := m
  cases frames with
  | nil => exact .inr rfl
  | cons f below =>
      cases hpending : f.pending with
      | nil =>
          have hnil : (f.tidy r.number).pending = [] := congrArg (Line.tidy r.number) hpending
          right
          show Machine.turn s' ⟨r.progress p, f.tidy r.number :: _⟩ = _
          rw [Machine.turn_of_pending_eq_nil hnil, Machine.turn_of_pending_eq_nil hpending]
          show (if f.repeats p.world then _ else _) = _
          split
          · rfl
          · rfl
      | cons l rest =>
          by_cases hl : l.Blank
          · have hsame : (f.resume rest).tidy r.number = f.tidy r.number := by
              unfold Frame.tidy Frame.resume
              simp only [hpending, Line.tidy_cons_of_blank r.number hl]
            left
            refine ⟨⟨p, f.resume rest :: below⟩, ?_, ?_⟩
            · rw [Machine.turn_of_pending_eq_cons hpending, hl.isCounted]
              rfl
            · rw [machine, machine, List.map_cons, List.map_cons, hsame]
          · have hcons : (f.tidy r.number).pending = l.renumber r.number :: Line.tidy r.number rest := by
              rw [Frame.tidy, hpending]
              exact Line.tidy_cons_of_not_blank r.number hl rest
            right
            show Machine.turn s' ⟨r.progress p, f.tidy r.number :: _⟩ = _
            rw [Machine.turn_of_pending_eq_cons hcons, Machine.turn_of_pending_eq_cons hpending,
              Line.isCounted_renumber, visit_told hs]
            split
            · cases s.visit l rest p with
              | ok v =>
                  show Turn.running ⟨_, _⟩ = Turn.running ⟨_, List.map _ (v.entered.toList ++ _)⟩
                  rw [List.map_append, ← Option.toList_map]
                  rfl
              | error stop => rfl
            · rfl

theorem run (m : Machine σ) :
    Machine.run s' (r.machine m) = r.part r.progress (Machine.run s m) := by
  induction m using Machine.turn_induction s with
  | hturn m ih =>
      rcases turn_told hs m with ⟨m', hturn, hsame⟩ | htold
      · rw [← hsame, Machine.run_of_running hturn]
        exact ih m' hturn
      · cases hturn : m.turn s with
        | finished =>
            rw [hturn] at htold
            rw [Machine.run, htold, Machine.run, hturn]
            rfl
        | stopped stop =>
            rw [hturn] at htold
            rw [Machine.run, htold, Machine.run, hturn]
            rfl
        | running m' =>
            rw [hturn] at htold
            rw [Machine.run_of_running htold, Machine.run_of_running hturn]
            exact ih m' hturn

theorem runBody (body : List Line) (world : World) (seen : σ) :
    (s'.runBody (Line.tidy r.number body) world (r.seen seen)).1 =
      RunResult.renumber r.number (s.runBody body world seen).1 := by
  have hrun := run hs ⟨.start world seen, [.once body]⟩
  unfold Setting.runBody
  change Machine.run s' ⟨.start world (r.seen seen), [.once (Line.tidy r.number body)]⟩ = _ at hrun
  rw [hrun]
  cases Machine.run s ⟨.start world seen, [.once body]⟩ with
  | ok p => rfl
  | error stop => rfl

end Retelling

/-! ### Programs -/

def Code.tidy (number : Nat → Nat) (code : Code) : Code :=
  ⟨code.bodies.map fun (name, body) => (name, Line.tidy number body)⟩

theorem Code.body?_map (f : List Line → List Line) (code : Code) (name : String) :
    Code.body? ⟨code.bodies.map (Prod.map id f)⟩ name = (code.body? name).map f := by
  obtain ⟨bodies⟩ := code
  unfold body?
  induction bodies with
  | nil => rfl
  | cons entry bodies ih =>
      obtain ⟨name', body⟩ := entry
      show List.lookup name ((name', f body) :: bodies.map (Prod.map id f)) = _
      rw [List.lookup_cons, List.lookup_cons]
      cases name == name' with
      | true => rfl
      | false => exact ih

theorem Code.body?_tidy (number : Nat → Nat) (code : Code) (name : String) :
    (code.tidy number).body? name = (code.body? name).map (Line.tidy number) :=
  body?_map (Line.tidy number) code name

/-- The run of code from its entry point, with nobody watching. -/
def Code.run (code : Code) (limit : Nat) (world : World) : RunResult :=
  match code.body? entryPoint with
  | some body => (Setting.runBody ⟨code, limit, fun (_ : Unit) _ => ()⟩ body world ()).1
  | none => .error ⟨.noEntryPoint, none, .untouched world⟩

theorem Program.renumber_runObserved_eq {σ : Type} {program : Program} {number : Nat → Nat} {code : Code}
    (hcode : ∀ name, code.body? name = ((Code.ofProgram program).body? name).map (Line.tidy number))
    (limit : Nat) (world : World) (observe : σ → Entry → σ) (seen : σ) :
    RunResult.renumber number (program.runObserved limit world observe seen).1 = code.run limit world := by
  have htells : (Retelling.mk number fun (_ : σ) => ()).Tells ⟨Code.ofProgram program, limit, observe⟩
      ⟨code, limit, fun _ _ => ()⟩ := ⟨hcode, rfl, fun _ _ => rfl⟩
  unfold Program.runObserved Code.run
  dsimp only
  rw [hcode]
  cases (Code.ofProgram program).body? entryPoint with
  | none => rfl
  | some body => exact (Retelling.runBody htells body world seen).symm

/-- Runs of programs that are the same when tidied are the same up to the numbers of lines, whatever their
observers keep. -/
theorem Program.renumber_runObserved {σ τ : Type} {program program' : Program} {number number' : Nat → Nat}
    (hcode : ∀ name, ((Code.ofProgram program).body? name).map (Line.tidy number) =
      ((Code.ofProgram program').body? name).map (Line.tidy number')) (limit : Nat) (world : World)
    (observe : σ → Entry → σ) (seen : σ) (observe' : τ → Entry → τ) (seen' : τ) :
    RunResult.renumber number (program.runObserved limit world observe seen).1 =
      RunResult.renumber number' (program'.runObserved limit world observe' seen').1 := by
  have htidy := Code.body?_tidy number (Code.ofProgram program)
  rw [renumber_runObserved_eq htidy, renumber_runObserved_eq fun name => (htidy name).trans (hcode name)]

end GridRobot
