import GridRobot.Proofs.Run.Course
import GridRobot.Proofs.Run.Turn

/-!
# Runs by plain recursion

What a script means can be said without a stack of frames: a block is gone through line by line, and
wherever a line calls for another block, that block is gone through first, by recursion. The functions
below do just that. All they need besides is room for blocks to nest: a block that is entered and every
further turn of a loop take one level, and going on to the next line takes none. `exec_eq_run` says that
they come to what the machine computes, unless there is not enough room, and that there is an end to the
room they need.

The proof goes through `framesCourse`, the course of a whole stack: each frame, the innermost first,
goes through its lines to come and, if it is a loop, starts over. A turn of the machine changes nothing
about it but the room.
-/

namespace GridRobot

namespace Setting

variable {σ : Type}

mutual

/-- The course of a block. A line that is not counted is free, and every other line is counted before
anything else happens. -/
def exec (s : Setting σ) (room : Nat) (lines : List Line) (p : Progress σ) : Course σ (Progress σ) :=
  match lines with
  | [] => pure p
  | l :: rest =>
      have := Line.length_afterBlock_le rest
      match l.statement with
      | .skip => s.exec room rest p
      | .whileLoop condition => do
          let p ← p.visit s.limit l.number
          let c ← p.resolve l.number condition
          let p ← s.again room c (Line.block rest) p
          s.exec room (Line.afterBlock rest) p
      | .ifBranch condition => do
          let p ← p.visit s.limit l.number
          let c ← p.resolve l.number condition
          s.clauses room l.margin? (if c.holds p.world then some (Line.block rest) else none)
            (Line.afterBlock rest) p
      | .call name => do
          let p ← p.visit s.limit l.number
          let p ← s.call room l.number name p
          s.exec room rest p
      | _ => do
          let p ← p.visit s.limit l.number
          s.exec room rest p
termination_by (room, 2 * lines.length + 2)

/-- The course of a loop: its block, over and over, as long as the condition is true. -/
def again (s : Setting σ) (room : Nat) (c : Condition) (body : List Line) (p : Progress σ) :
    Course σ (Progress σ) :=
  if c.holds p.world then
    if body.any Line.isCounted then
      match room with
      | 0 => .cramped
      | room + 1 => do
          let p ← s.exec room body p
          s.again room c body p
    else throw ⟨.emptyLoop s.limit, p⟩
  else pure p
termination_by (room, 0)

/-- The course of what follows the block of an `if`. Clauses at the margin of the `if` are counted one by
one, and the first that applies is chosen unless a block was chosen before. Behind the last of them, or
behind an `else`, the block chosen is run and the rest of the lines after it. -/
def clauses (s : Setting σ) (room : Nat) (margin : Option Nat) (chosen : Option (List Line))
    (lines : List Line) (p : Progress σ) : Course σ (Progress σ) :=
  match lines with
  | [] => s.enter room chosen p
  | l :: rest =>
      have := Line.length_afterBlock_le rest
      if l.statement = .skip then s.clauses room margin chosen rest p
      else if l.margin? = margin ∧ l.statement.continuesBranch = true then do
        let p ← p.visit s.limit l.number
        match l.statement, chosen with
        | .elifBranch condition, none => do
            let c ← p.resolve l.number condition
            s.clauses room margin (if c.holds p.world then some (Line.block rest) else none)
              (Line.afterBlock rest) p
        | .elifBranch _, some body => s.clauses room margin (some body) (Line.afterBlock rest) p
        | _, _ => do
            let p ← s.enter room (chosen.getD (Line.block rest)) p
            s.exec room (Line.afterBlock rest) p
      else do
        let p ← s.enter room chosen p
        s.exec room (l :: rest) p
termination_by (room, 2 * lines.length + 3)

/-- The course of a call: a command, else a procedure, else a name that does nothing. -/
def call (s : Setting σ) (room number : Nat) (name : String) (p : Progress σ) : Course σ (Progress σ) :=
  match Command.ofName? name with
  | some action => liftM (p.perform s.observe action)
  | none =>
      match s.code.body? name with
      | some body => s.enter room body p
      | none =>
          if idleCalls.contains name || (Condition.ofName? name).isSome then pure p
          else throw ⟨.unknownCommand name number, p⟩
termination_by (room, 1)

/-- The course of a block, if there is one, within the block that is being run. -/
def enter (s : Setting σ) (room : Nat) (block : Option (List Line)) (p : Progress σ) :
    Course σ (Progress σ) :=
  match room, block with
  | _, none => pure p
  | 0, some _ => .cramped
  | room + 1, some body => s.exec room body p
termination_by (room, 0)

end

@[simp] theorem exec_nil (s : Setting σ) (room : Nat) (p : Progress σ) : s.exec room [] p = pure p := by
  rw [exec]

theorem exec_cons_of_not_counted (s : Setting σ) (room : Nat) {l : Line} (hl : l.isCounted = false)
    (rest : List Line) (p : Progress σ) : s.exec room (l :: rest) p = s.exec room rest p := by
  have hskip : l.statement = .skip := by simpa [Line.isCounted] using hl
  rw [exec]
  simp only [hskip]

@[simp] theorem enter_none (s : Setting σ) (room : Nat) (p : Progress σ) : s.enter room none p = pure p := by
  rw [enter]

end Setting

namespace Clause

/-! ### Chains, one line at a time -/

theorem chain_of_dropWhile_eq_nil (margin : Option Nat) {lines : List Line}
    (hdrop : lines.dropWhile (!·.isCounted) = []) : chain margin lines = ([], lines) := by
  rw [chain]
  split
  · rfl
  · next h => simp [hdrop] at h

theorem chain_of_dropWhile_eq_cons (margin : Option Nat) {lines : List Line} {l : Line}
    {rest : List Line} (hdrop : lines.dropWhile (!·.isCounted) = l :: rest) :
    chain margin lines =
      if l.margin? = margin then
        match l.statement with
        | .elifBranch c =>
            (⟨l.number, some c, Line.block rest⟩ :: (chain margin (Line.afterBlock rest)).1,
              (chain margin (Line.afterBlock rest)).2)
        | .elseBranch => ([⟨l.number, none, Line.block rest⟩], Line.afterBlock rest)
        | _ => ([], lines)
      else ([], lines) := by
  rw [chain]
  split
  · next h => simp [hdrop] at h
  · next l' rest' h =>
      rw [hdrop] at h
      cases h
      rfl

theorem chain_cons_of_counted (margin : Option Nat) {l : Line} (hl : l.isCounted = true)
    (rest : List Line) :
    chain margin (l :: rest) =
      if l.margin? = margin then
        match l.statement with
        | .elifBranch c =>
            (⟨l.number, some c, Line.block rest⟩ :: (chain margin (Line.afterBlock rest)).1,
              (chain margin (Line.afterBlock rest)).2)
        | .elseBranch => ([⟨l.number, none, Line.block rest⟩], Line.afterBlock rest)
        | _ => ([], l :: rest)
      else ([], l :: rest) :=
  chain_of_dropWhile_eq_cons margin (by simp [hl])

/-- A line that is not counted is passed over if a clause follows, and otherwise stays where it is. -/
theorem chain_cons_of_not_counted (margin : Option Nat) {l : Line} (hl : l.isCounted = false)
    (rest : List Line) :
    (chain margin (l :: rest)).1 = (chain margin rest).1 ∧
      ((chain margin (l :: rest)).2 = (chain margin rest).2 ∨
        (chain margin (l :: rest)).2 = l :: (chain margin rest).2) := by
  have hdrop : (l :: rest).dropWhile (!·.isCounted) = rest.dropWhile (!·.isCounted) := by simp [hl]
  cases h : rest.dropWhile (!·.isCounted) with
  | nil =>
      rw [chain_of_dropWhile_eq_nil margin (hdrop.trans h), chain_of_dropWhile_eq_nil margin h]
      exact ⟨rfl, .inr rfl⟩
  | cons l' rest' =>
      rw [chain_of_dropWhile_eq_cons margin (hdrop.trans h), chain_of_dropWhile_eq_cons margin h]
      split
      · split
        · exact ⟨rfl, .inl rfl⟩
        · exact ⟨rfl, .inl rfl⟩
        · exact ⟨rfl, .inr rfl⟩
      · exact ⟨rfl, .inr rfl⟩

end Clause

namespace Setting

variable {σ : Type}

/-- The course of what follows the block of an `if`, the chain being cut out first and gone through then. -/
def chainCourse (s : Setting σ) (room : Nat) (margin : Option Nat) (chosen : Option (List Line))
    (lines : List Line) (p : Progress σ) : Course σ (Progress σ) := do
  let (chosen, p) ← liftM (Clause.choose s.limit (Clause.chain margin lines).1 chosen p)
  let p ← s.enter room chosen p
  s.exec room (Clause.chain margin lines).2 p

theorem chainCourse_cons_of_not_counted (s : Setting σ) (room : Nat) (margin : Option Nat)
    (chosen : Option (List Line)) {l : Line} (hl : l.isCounted = false) (rest : List Line)
    (p : Progress σ) :
    s.chainCourse room margin chosen (l :: rest) p = s.chainCourse room margin chosen rest p := by
  obtain ⟨hfirst, hrest⟩ := Clause.chain_cons_of_not_counted margin hl rest
  have hexec : s.exec room (Clause.chain margin (l :: rest)).2 =
      s.exec room (Clause.chain margin rest).2 := by
    funext q
    rcases hrest with hrest | hrest
    · rw [hrest]
    · rw [hrest, s.exec_cons_of_not_counted room hl]
  rw [chainCourse, chainCourse, hfirst, hexec]

theorem chainCourse_elif (s : Setting σ) (room : Nat) (chosen : Option (List Line)) {l : Line}
    {condition : String} (hs : l.statement = .elifBranch condition) (rest : List Line) (p : Progress σ) :
    s.chainCourse room l.margin? chosen (l :: rest) p = (do
      let p ← p.visit s.limit l.number
      match chosen with
      | some body => s.chainCourse room l.margin? (some body) (Line.afterBlock rest) p
      | none => do
          let c ← p.resolve l.number condition
          s.chainCourse room l.margin? (if c.holds p.world then some (Line.block rest) else none)
            (Line.afterBlock rest) p) := by
  have hl : l.isCounted = true := by simp [Line.isCounted, hs]
  rw [chainCourse, Clause.chain_cons_of_counted _ hl, if_pos rfl]
  simp only [hs, Clause.choose, Course.liftM_bind, bind_assoc]
  congr 1
  funext q
  cases chosen with
  | some body => rfl
  | none =>
      simp only [Clause.applies, Course.liftM_bind, bind_assoc]
      cases q.resolve l.number condition with
      | ok c => simp [Except.map, chainCourse]
      | error stop => rfl

theorem chainCourse_else (s : Setting σ) (room : Nat) (chosen : Option (List Line)) {l : Line}
    (hs : l.statement = .elseBranch) (rest : List Line) (p : Progress σ) :
    s.chainCourse room l.margin? chosen (l :: rest) p = (do
      let p ← p.visit s.limit l.number
      let p ← s.enter room (chosen.getD (Line.block rest)) p
      s.exec room (Line.afterBlock rest) p) := by
  have hl : l.isCounted = true := by simp [Line.isCounted, hs]
  rw [chainCourse, Clause.chain_cons_of_counted _ hl, if_pos rfl]
  simp only [hs, Clause.choose, Course.liftM_bind, bind_assoc]
  congr 1
  funext q
  cases chosen with
  | some body => simp
  | none => simp [Clause.applies]

theorem chainCourse_of_not_clause (s : Setting σ) (room : Nat) {margin : Option Nat}
    (chosen : Option (List Line)) {l : Line} (hl : l.isCounted = true)
    (hno : ¬ (l.margin? = margin ∧ l.statement.continuesBranch = true)) (rest : List Line)
    (p : Progress σ) :
    s.chainCourse room margin chosen (l :: rest) p = (do
      let p ← s.enter room chosen p
      s.exec room (l :: rest) p) := by
  have hchain : Clause.chain margin (l :: rest) = ([], l :: rest) := by
    rw [Clause.chain_cons_of_counted _ hl]
    by_cases hm : l.margin? = margin
    · rw [if_pos hm]
      cases hs : l.statement with
      | elifBranch condition => exact absurd ⟨hm, by rw [hs]; rfl⟩ hno
      | elseBranch => exact absurd ⟨hm, by rw [hs]; rfl⟩ hno
      | _ => rfl
    · rw [if_neg hm]
  rw [chainCourse, hchain]
  simp [Clause.choose]

/-- Cutting a chain out and going through it is the same as going on from clause to clause. The next clause is looked
for behind a whole block, hence the induction on the number of lines. -/
theorem clauses_eq_chainCourse (s : Setting σ) (room : Nat) (margin : Option Nat) (lines : List Line)
    (chosen : Option (List Line)) (p : Progress σ) :
    s.clauses room margin chosen lines p = s.chainCourse room margin chosen lines p := by
  induction hn : lines.length using Nat.strongRecOn generalizing lines chosen p with
  | _ n ih =>
      cases lines with
      | nil =>
          rw [clauses, chainCourse, Clause.chain_of_dropWhile_eq_nil margin rfl]
          simp [Clause.choose]
      | cons l rest =>
          have hafter := Line.length_afterBlock_le rest
          rw [List.length_cons] at hn
          have hrest := fun chosen p => ih rest.length (by omega) rest chosen p rfl
          have hbehind := fun chosen p =>
            ih (Line.afterBlock rest).length (by omega) (Line.afterBlock rest) chosen p rfl
          rw [clauses]
          by_cases hskip : l.statement = .skip
          · have hl : l.isCounted = false := by simp [Line.isCounted, hskip]
            rw [if_pos hskip, s.chainCourse_cons_of_not_counted room margin chosen hl, hrest]
          · have hl : l.isCounted = true := by simpa [Line.isCounted] using hskip
            rw [if_neg hskip]
            split
            · next hclause =>
                obtain ⟨rfl, hcontinues⟩ := hclause
                cases hs : l.statement with
                | elifBranch condition =>
                    rw [s.chainCourse_elif room chosen hs]
                    cases chosen <;> simp only [hbehind]
                | elseBranch => rw [s.chainCourse_else room chosen hs]
                | _ =>
                    rw [hs] at hcontinues
                    cases hcontinues
            · next hno => rw [s.chainCourse_of_not_clause room chosen hl hno]

/-! ### The course of a stack -/

/-- The course of a frame: its lines to come, and behind them, for a loop, what is left of the loop. -/
def frameCourse (s : Setting σ) (room : Nat) (f : Frame) (p : Progress σ) : Course σ (Progress σ) := do
  let p ← s.exec room f.pending p
  match f.again with
  | some c => s.again room c f.body p
  | none => pure p

def framesCourse (s : Setting σ) : List (Nat × Frame) → Progress σ → Course σ (Progress σ)
  | [], p => pure p
  | (room, f) :: below, p => do
      let p ← s.frameCourse room f p
      s.framesCourse below p

@[simp] theorem frameCourse_once (s : Setting σ) (room : Nat) (body : List Line) (p : Progress σ) :
    s.frameCourse room (.once body) p = s.exec room body p := by
  simp [frameCourse, Frame.once]

/-- The course of a block that is entered, if there is one, one level deeper. -/
def enteredCourse (s : Setting σ) : (room : Nat) → Option Frame → Progress σ → Course σ (Progress σ)
  | _, none, p => pure p
  | 0, some _, _ => .cramped
  | room + 1, some f, p => s.frameCourse room f p

theorem enter_eq_enteredCourse (s : Setting σ) (room : Nat) (block : Option (List Line))
    (p : Progress σ) : s.enter room block p = s.enteredCourse room (block.map .once) p := by
  rw [enter.eq_def]
  cases block with
  | none => rfl
  | some body =>
      cases room with
      | zero => rfl
      | succ room => simp [enteredCourse]

/-- The course that a visit leaves: the block entered, if any, and then the rest of the lines. -/
def visitCourse (s : Setting σ) (room : Nat) (v : Visit σ) : Course σ (Progress σ) := do
  let p ← s.enteredCourse room v.entered v.progress
  s.exec room v.resume p

theorem again_eq_enterLoop (s : Setting σ) (room : Nat) (l : Line) (rest : List Line) (condition : String)
    (p : Progress σ) :
    (do
      let c ← liftM (p.resolve l.number condition)
      let p ← s.again room c (Line.block rest) p
      s.exec room (Line.afterBlock rest) p) =
      liftM (s.enterLoop l rest condition p) >>= s.visitCourse room := by
  simp only [enterLoop, Course.liftM_bind, bind_assoc]
  congr 1
  funext c
  rw [again.eq_def]
  by_cases hholds : c.holds p.world = true
  · by_cases hcounts : (Line.block rest).any Line.isCounted = true
    · rw [if_pos hholds, if_pos hcounts, if_pos hholds, dif_pos hcounts]
      cases room with
      | zero => rfl
      | succ room => simp [visitCourse, enteredCourse, frameCourse, Frame.loop]
    · rw [if_pos hholds, if_neg hcounts, if_pos hholds, dif_neg hcounts]
      rfl
  · rw [if_neg hholds, if_neg hholds]
    simp [visitCourse, enteredCourse]

theorem clauses_eq_enterBranch (s : Setting σ) (room : Nat) (l : Line) (rest : List Line)
    (condition : String) (p : Progress σ) :
    (do
      let c ← liftM (p.resolve l.number condition)
      s.clauses room l.margin? (if c.holds p.world then some (Line.block rest) else none)
        (Line.afterBlock rest) p) =
      liftM (s.enterBranch l rest condition p) >>= s.visitCourse room := by
  simp only [enterBranch, Course.liftM_bind, bind_assoc, clauses_eq_chainCourse, chainCourse,
    enter_eq_enteredCourse]
  rfl

theorem call_eq_enterCall (s : Setting σ) (room : Nat) (l : Line) (rest : List Line) (name : String)
    (p : Progress σ) :
    (do
      let p ← s.call room l.number name p
      s.exec room rest p) =
      liftM (s.enterCall l rest name p) >>= s.visitCourse room := by
  rw [call, enterCall]
  cases Command.ofName? name with
  | some action =>
      cases hp : p.perform s.observe action <;> simp [hp, Except.map, visitCourse, enteredCourse]
  | none =>
      cases s.code.body? name with
      | some body => simp [visitCourse, enter_eq_enteredCourse]
      | none =>
          by_cases hidle : (idleCalls.contains name || (Condition.ofName? name).isSome) = true
          · rw [if_pos hidle, if_pos hidle]
            simp [visitCourse, enteredCourse]
          · rw [if_neg hidle, if_neg hidle]
            rfl

theorem exec_cons_of_counted (s : Setting σ) (room : Nat) {l : Line} (hl : l.isCounted = true)
    (rest : List Line) (p : Progress σ) :
    s.exec room (l :: rest) p = liftM (s.visit l rest p) >>= s.visitCourse room := by
  have hskip : l.statement ≠ .skip := by simpa [Line.isCounted] using hl
  rw [exec, visit]
  cases hs : l.statement with
  | skip => exact absurd hs hskip
  | whileLoop condition => simp only [Course.liftM_bind, bind_assoc, again_eq_enterLoop]
  | ifBranch condition => simp only [Course.liftM_bind, bind_assoc, clauses_eq_enterBranch]
  | call name => simp only [Course.liftM_bind, bind_assoc, call_eq_enterCall]
  | _ => simp [visitCourse, enteredCourse]

/-! ### The course of a frame, turn by turn -/

theorem frameCourse_repeats (s : Setting σ) (room : Nat) {f : Frame} {p : Progress σ}
    (hpending : f.pending = []) (hrepeats : f.repeats p.world = true) :
    s.frameCourse room f p = s.enteredCourse room (some (f.resume f.body)) p := by
  unfold frameCourse
  unfold Frame.repeats at hrepeats
  rw [hpending, exec_nil, pure_bind]
  cases hagain : f.again with
  | none => simp [hagain] at hrepeats
  | some c =>
      have hholds : c.holds p.world = true := by simpa [hagain] using hrepeats
      have hcounts : f.body.any Line.isCounted = true := f.counts (by rw [hagain]; rfl)
      dsimp only
      rw [again.eq_def, if_pos hholds, if_pos hcounts]
      cases room with
      | zero => rfl
      | succ room => simp only [enteredCourse, frameCourse, Frame.resume, hagain]

theorem frameCourse_ended (s : Setting σ) (room : Nat) {f : Frame} {p : Progress σ}
    (hpending : f.pending = []) (hrepeats : f.repeats p.world = false) :
    s.frameCourse room f p = pure p := by
  unfold frameCourse
  unfold Frame.repeats at hrepeats
  rw [hpending, exec_nil, pure_bind]
  cases hagain : f.again with
  | none => rfl
  | some c =>
      have hholds : ¬ c.holds p.world = true := by simpa [hagain] using hrepeats
      dsimp only
      rw [again.eq_def, if_neg hholds]

theorem frameCourse_of_not_counted (s : Setting σ) (room : Nat) {f : Frame} {l : Line} {rest : List Line}
    (hpending : f.pending = l :: rest) (hl : l.isCounted = false) (p : Progress σ) :
    s.frameCourse room f p = s.frameCourse room (f.resume rest) p := by
  unfold frameCourse
  rw [hpending, s.exec_cons_of_not_counted room hl]
  rfl

theorem frameCourse_of_counted (s : Setting σ) (room : Nat) {f : Frame} {l : Line} {rest : List Line}
    (hpending : f.pending = l :: rest) (hl : l.isCounted = true) (p : Progress σ) :
    s.frameCourse room f p = (do
      let v ← liftM (s.visit l rest p)
      let p ← s.enteredCourse room v.entered v.progress
      s.frameCourse room (f.resume v.resume) p) := by
  unfold frameCourse
  rw [hpending, s.exec_cons_of_counted room hl]
  simp only [visitCourse, bind_assoc]
  rfl

end Setting

namespace Machine

variable {σ : Type}

/-- A course of what a machine has still to do, with room for some levels in every frame. -/
def HasCourse (s : Setting σ) (room : Nat) (m : Machine σ) (k : Course σ (Progress σ)) : Prop :=
  ∃ frames : List (Nat × Frame), frames.map (·.2) = m.frames ∧ (∀ f ∈ frames, room ≤ f.1) ∧
    k = s.framesCourse frames m.progress

theorem hasCourse_entered (s : Setting σ) {room n : Nat} (hn : room ≤ n) {below : List (Nat × Frame)}
    (hbelow : ∀ f ∈ below, room - 1 ≤ f.1) (entered : Option Frame) (p : Progress σ) :
    (room = 0 ∧ s.enteredCourse n entered p >>= s.framesCourse below = .cramped) ∨
      HasCourse s (room - 1) ⟨p, entered.toList ++ below.map (·.2)⟩
        (s.enteredCourse n entered p >>= s.framesCourse below) := by
  cases entered with
  | none => exact .inr ⟨below, rfl, hbelow, by simp [Setting.enteredCourse]⟩
  | some f =>
      cases n with
      | zero => exact .inl ⟨Nat.le_zero.1 hn, rfl⟩
      | succ n => exact .inr ⟨(n, f) :: below, rfl, List.forall_mem_cons.2 ⟨by omega, hbelow⟩, rfl⟩

/-- No turn of the machine changes its course. -/
theorem hasCourse_follows_turn (s : Setting σ) (room : Nat) (m : Machine σ) (k : Course σ (Progress σ))
    (hk : m.HasCourse s room k) :
    (room = 0 ∧ k = .cramped) ∨ Course.Follows (HasCourse s (room - 1)) m k (m.turn s) := by
  obtain ⟨frames, hframes, hroom, rfl⟩ := hk
  generalize hturn : m.turn s = turn
  have hcases := turn_cases hturn
  rw [← hframes] at hcases
  cases frames with
  | nil =>
      cases hcases
      exact .inr rfl
  | cons top below =>
      obtain ⟨n, f⟩ := top
      obtain ⟨hn, hbelow⟩ := List.forall_mem_cons.1 hroom
      have hbelow : ∀ f ∈ below, room - 1 ≤ f.1 := fun f hf => Nat.le_trans (Nat.sub_le room 1) (hbelow f hf)
      have hn' : room - 1 ≤ n := Nat.le_trans (Nat.sub_le room 1) hn
      rw [Setting.framesCourse]
      cases hcases with
      | repeated hpending hrepeats =>
          rw [s.frameCourse_repeats n hpending hrepeats]
          exact hasCourse_entered s hn hbelow _ m.progress
      | left hpending hrepeats =>
          rw [s.frameCourse_ended n hpending hrepeats, pure_bind]
          exact .inr ⟨below, rfl, hbelow, rfl⟩
      | @passed _ _ _ rest hpending hl =>
          rw [s.frameCourse_of_not_counted n hpending hl]
          exact .inr ⟨(n, f.resume rest) :: below, rfl, List.forall_mem_cons.2 ⟨hn', hbelow⟩, rfl⟩
      | @visited _ _ l rest v hpending hl hvisit =>
          rw [s.frameCourse_of_counted n hpending hl, hvisit, Course.liftM_ok, pure_bind, bind_assoc]
          have hresumed : ∀ g ∈ (n, f.resume v.resume) :: below, room - 1 ≤ g.1 :=
            List.forall_mem_cons.2 ⟨hn', hbelow⟩
          exact hasCourse_entered s hn hresumed v.entered v.progress
      | stopped hpending hl hvisit =>
          rw [s.frameCourse_of_counted n hpending hl, hvisit]
          exact .inr rfl

/-- The course of a block is what the machine computes when it is started with that block, unless there is
not enough room. -/
theorem exec_eq_run (s : Setting σ) (body : List Line) (p : Progress σ) :
    ∃ enough, ∀ room, s.exec room body p = liftM (run s ⟨p, [.once body]⟩) ∨
      (s.exec room body p = .cramped ∧ room < enough) := by
  obtain ⟨enough, henough⟩ := Course.run_eq_of_follows (hasCourse_follows_turn s) ⟨p, [.once body]⟩
  refine ⟨enough, fun room => henough room _ ⟨[(room, .once body)], rfl, ?_, ?_⟩⟩
  · intro f hf
    cases List.mem_singleton.1 hf
    exact Nat.le_refl room
  · simp [Setting.framesCourse]

end Machine

/-! ### Scripts -/

/-- The run of a script by plain recursion from its entry point; nothing if there is not enough room. -/
def interpret (room : Nat) (script : String) (world : World) (limit : Nat) : Option RunResult :=
  match (Code.ofProgram (Program.parse script)).body? entryPoint with
  | some body => ((Setting.ofScript script limit).exec room body (.start world ())).run.map RunResult.ofEnd
  | none => some (.error ⟨.noEntryPoint, none, .untouched world⟩)

/-- Every script runs on the machine as it does by plain recursion. Whatever the recursion comes to, it is
the same success or error, at the same line, with the same steps, trace and world; and it comes to that
as soon as there is enough room. -/
theorem interpret_eq_runScript (script : String) (world : World) (limit : Nat) :
    ∃ enough, ∀ room, interpret room script world limit = some (runScript script world limit) ∨
      (interpret room script world limit = none ∧ room < enough) := by
  unfold interpret
  rcases runScript_eq script world limit with ⟨hmain, hrun⟩ | ⟨hmain, hrun⟩
  · rw [hmain, hrun]
    exact ⟨0, fun room => .inl rfl⟩
  · obtain ⟨body, hbody⟩ := Option.ne_none_iff_exists'.1 hmain
    have hload : Machine.load script world = ⟨.start world (), [.once body]⟩ := by
      rw [Machine.load, hbody]
      rfl
    obtain ⟨enough, henough⟩ := Machine.exec_eq_run (.ofScript script limit) body (.start world ())
    refine ⟨enough, fun room => ?_⟩
    rw [hbody, hrun, hload]
    dsimp only
    rcases henough room with hexec | ⟨hexec, hlt⟩
    · rw [hexec]
      exact .inl rfl
    · rw [hexec]
      exact .inr ⟨rfl, hlt⟩

end GridRobot
