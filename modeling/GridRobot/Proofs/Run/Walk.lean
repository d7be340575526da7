import GridRobot.Proofs.Plan.Script
import GridRobot.Proofs.Run.Limit
import GridRobot.Proofs.World.Edge

/-!
# Walking up to the wall

The script that moves while the front is clear. Ahead of the robot there is always a blocked edge, at the
border of the grid if not at a wall before it, and `World.Way` is the way up to the first one. The loop goes
that way step by step: each turn of it makes one move and counts one line, until the edge ahead is blocked
or the limit is reached (`Machine.run_way`). The header of the loop is counted once, before all moves, so
`n` moves take `n + 1` steps.
-/

namespace GridRobot

/-! ### The way ahead -/

/-- The cell a number of steps away, as long as its coordinates are words; the grid plays no part. -/
def Position.ahead? (p : Position) (d : Direction) : Nat → Option Position
  | 0 => some p
  | n + 1 => (p.ahead? d n).bind (·.step? d)

theorem Position.ahead?_succ {p q : Position} {d : Direction} (hstep : p.step? d = some q) (n : Nat) :
    p.ahead? d (n + 1) = q.ahead? d n := by
  induction n with
  | zero => exact hstep
  | succ n ih => rw [ahead?, ih, ahead?]

namespace World

/-- The world with the robot in another cell. -/
def placed (w : World) (cell : Position) : World := { w with agent := { w.agent with cell } }

/-- Whether the next edge is blocked, a number of steps ahead of the robot. -/
def BlockedAfter (w : World) (n : Nat) : Prop :=
  ∃ cell, w.agent.cell.ahead? w.agent.facing n = some cell ∧ w.isBlocked cell w.agent.facing = true

/-- The way from a cell up to the first blocked edge in a direction, with the number of its steps and the
cell where it ends. -/
inductive Way (w : World) (d : Direction) : Position → Nat → Position → Prop where
  | here {p : Position} (hblocked : w.isBlocked p d = true) : Way w d p 0 p
  | step {p q finish : Position} {n : Nat} (hclear : w.isBlocked p d = false)
      (hstep : p.step? d = some q) (hway : Way w d q n finish) : Way w d p (n + 1) finish

/-- How many steps there can be at most before the border. -/
def room (w : World) (p : Position) : Direction → Nat
  | .north => w.height.toNat - p.y.toNat
  | .east => w.width.toNat - p.x.toNat
  | .south => p.y.toNat
  | .west => p.x.toNat

theorem room_of_step? {w : World} {p q : Position} {d : Direction} (hborder : w.atBorder p d = false)
    (hstep : p.step? d = some q) : w.room q d < w.room p d := by
  obtain ⟨hqx, hqy⟩ := Position.toNat_of_step? hstep
  have hside := of_not_atBorder hborder
  cases d with
  | north | east | south | west =>
      simp only [Direction.delta] at hqx hqy hside
      simp only [room]
      omega

/-- The wall is reached from every cell, since a step through a clear edge leaves less room before the border. -/
theorem exists_way (w : World) (d : Direction) (p : Position) : ∃ n finish, w.Way d p n finish := by
  induction hroom : w.room p d using Nat.strongRecOn generalizing p with
  | ind room ih =>
      cases hblocked : w.isBlocked p d with
      | true => exact ⟨0, p, .here hblocked⟩
      | false =>
          have hborder := not_atBorder_of_not_isBlocked hblocked
          obtain ⟨q, hstep⟩ := exists_step?_of_not_atBorder hborder
          obtain ⟨n, finish, hway⟩ := ih (w.room q d) (hroom ▸ room_of_step? hborder hstep) q rfl
          exact ⟨n + 1, finish, .step hblocked hstep hway⟩

namespace Way

variable {w : World} {d : Direction} {p finish : Position} {n : Nat}

theorem ends (h : w.Way d p n finish) : p.ahead? d n = some finish ∧ w.isBlocked finish d = true := by
  induction h with
  | here hblocked => exact ⟨rfl, hblocked⟩
  | step _ hstep _ ih =>
      rw [Position.ahead?_succ hstep]
      exact ih

theorem clear (h : w.Way d p n finish) :
    ∀ m < n, ∃ q, p.ahead? d m = some q ∧ w.isBlocked q d = false := by
  induction h with
  | here => exact fun m hm => absurd hm (Nat.not_lt_zero m)
  | step hclear hstep _ ih =>
      intro m hm
      cases m with
      | zero => exact ⟨_, rfl, hclear⟩
      | succ m =>
          rw [Position.ahead?_succ hstep]
          exact ih m (Nat.lt_of_succ_lt_succ hm)

/-- The length of the way is the least number of steps after which the next edge is blocked. -/
theorem least (h : w.Way w.agent.facing w.agent.cell n finish) :
    w.BlockedAfter n ∧ ∀ m < n, ¬ w.BlockedAfter m := by
  refine ⟨⟨finish, h.ends⟩, ?_⟩
  rintro m hm ⟨cell, hcell, hblocked⟩
  obtain ⟨q, hq, hclear⟩ := h.clear m hm
  rw [hq, Option.some.injEq] at hcell
  rw [← hcell, hclear] at hblocked
  cases hblocked

end Way

end World

/-! ### The loop -/

section Loop

variable {σ : Type} {s : Setting σ}

theorem Setting.visit_past_limit {p : Progress σ} (h : s.limit < p.steps + 1) (l : Line)
    (rest : List Line) : s.visit l rest p = .error ⟨.stepLimit s.limit, p.count l.number⟩ := by
  rw [visit_eq_carryOut, Progress.visit, if_pos h]
  rfl

theorem Setting.visit_within_limit {p : Progress σ} (h : p.steps + 1 ≤ s.limit) (l : Line)
    (rest : List Line) : s.visit l rest p = s.carryOut l rest (p.count l.number) := by
  rw [visit_eq_carryOut, Progress.visit, if_neg (Nat.not_lt.2 h)]
  rfl

theorem Setting.visit_move {p : Progress σ} {w : World} (h : p.steps + 1 ≤ s.limit)
    (hmoved : Command.move.apply p.world = .ok w) {l : Line} (hl : l.statement = .call "move")
    (rest : List Line) :
    ∃ q, s.visit l rest p = .ok ⟨q, rest, none⟩ ∧ q.world = w ∧ q.steps = p.steps + 1 ∧
      q.history = ⟨.move, w⟩ :: p.history := by
  have hname : Command.ofName? "move" = some .move := by decide
  have hperform : ∃ q, (p.count l.number).perform s.observe .move = .ok q ∧ q.world = w ∧
      q.steps = p.steps + 1 ∧ q.history = ⟨.move, w⟩ :: p.history := by
    rw [Progress.perform, show (p.count l.number).world = p.world from rfl, hmoved]
    exact ⟨_, rfl, rfl, rfl, rfl⟩
  obtain ⟨q, hq, hmoves⟩ := hperform
  refine ⟨q, ?_, hmoves⟩
  rw [visit_within_limit h, carryOut, hl]
  dsimp only
  rw [enterCall, hname]
  dsimp only
  rw [hq]
  rfl

/-- A loop that has a line that counts is entered if its condition is true. -/
theorem Setting.enterLoop_of_counts {l : Line} {rest : List Line} {condition : String} {c : Condition}
    (hname : Condition.ofName? condition = some c)
    (hcounts : (Line.block rest).any Line.isCounted = true) (p : Progress σ) :
    s.enterLoop l rest condition p =
      .ok ⟨p, Line.afterBlock rest,
        if c.holds p.world then some (.loop c (Line.block rest) hcounts) else none⟩ := by
  unfold enterLoop Progress.resolve
  rw [hname]
  change (if c.holds p.world then _ else _) = _
  rw [dif_pos hcounts]
  split <;> rfl

namespace Machine

/-- Lines that are not counted are passed over. -/
theorem run_passed {lead : List Line} (hlead : ∀ l ∈ lead, l.isCounted = false) (p : Progress σ) (f : Frame)
    (rest : List Line) (below : List Frame) :
    run s ⟨p, f.resume (lead ++ rest) :: below⟩ = run s ⟨p, f.resume rest :: below⟩ := by
  induction lead with
  | nil => rfl
  | cons l lead ih =>
      obtain ⟨hl, hlead⟩ := List.forall_mem_cons.1 hlead
      have hturn : turn s ⟨p, f.resume (l :: (lead ++ rest)) :: below⟩ =
          .running ⟨p, f.resume (lead ++ rest) :: below⟩ := by
        rw [turn_of_pending_eq_cons rfl, hl]
        rfl
      exact (run_of_running hturn).trans (ih hlead)

/-- At the end of its block a frame starts over or is left. -/
theorem run_at_end (p : Progress σ) (f : Frame) (below : List Frame) :
    run s ⟨p, f.resume [] :: below⟩ =
      if f.repeats p.world then run s ⟨p, f.resume f.body :: below⟩ else run s ⟨p, below⟩ := by
  have hturn := turn_of_pending_eq_nil (f := f.resume []) rfl s p below
  split
  · next hrepeats =>
      rw [show (f.resume []).repeats p.world = true from hrepeats, if_pos rfl] at hturn
      exact run_of_running hturn
  · next hrepeats =>
      rw [show (f.resume []).repeats p.world = f.repeats p.world from rfl, if_neg hrepeats] at hturn
      exact run_of_running hturn

/-- A run is over at the end of a block that is not a loop's, if nothing is below it. -/
theorem run_main_at_end {main : Frame} (hmain : main.again = none) (p : Progress σ) :
    run s ⟨p, [main.resume []]⟩ = .ok p := by
  have hrepeats : main.repeats p.world = false := by
    rw [Frame.repeats, hmain]
    rfl
  rw [run_at_end, hrepeats, if_neg Bool.false_ne_true, run]
  rfl

/-- A line that is visited decides how the run goes on. -/
theorem run_visited (p : Progress σ) (f : Frame) {l : Line} (hl : l.isCounted = true) (rest : List Line)
    (below : List Frame) :
    run s ⟨p, f.resume (l :: rest) :: below⟩ =
      s.visit l rest p >>= fun v => run s ⟨v.progress, v.entered.toList ++ f.resume v.resume :: below⟩ := by
  have hturn := turn_of_pending_eq_cons (f := f.resume (l :: rest)) rfl s p below
  rw [if_pos hl] at hturn
  exact run_of_visit hturn

end Machine

/-- The lines of a loop that moves while the front is clear: its header and its block, where one move is all
that counts. -/
structure Line.Walks (header move : Line) (tail : List Line) : Prop where
  asks : header.statement = .whileLoop "front_is_clear"
  moves : move.statement = .call "move"
  passed : ∀ l ∈ tail, l.isCounted = false
  block : Line.block (move :: tail) = move :: tail

namespace Line.Walks

variable {header move : Line} {tail : List Line}

theorem isCounted (h : Line.Walks header move tail) : header.isCounted = true := by
  rw [Line.isCounted, h.asks]
  rfl

theorem isCounted_move (h : Line.Walks header move tail) : move.isCounted = true := by
  rw [Line.isCounted, h.moves]
  rfl

theorem any_isCounted (h : Line.Walks header move tail) :
    (Line.block (move :: tail)).any Line.isCounted = true := by
  rw [h.block, List.any_cons, h.isCounted_move, Bool.true_or]

theorem afterBlock (h : Line.Walks header move tail) : Line.afterBlock (move :: tail) = [] := by
  rw [Line.afterBlock, h.block, List.drop_length]

end Line.Walks

/-- The frame of such a loop. -/
structure Frame.Strides (f : Frame) (header move : Line) (tail : List Line) : Prop where
  lines : Line.Walks header move tail
  body : f.body = move :: tail
  again : f.again = some .frontIsClear

theorem Frame.Strides.repeats {f : Frame} {header move : Line} {tail : List Line}
    (h : f.Strides header move tail) (w : World) (cell : Position) :
    f.repeats (w.placed cell) = !w.isBlocked cell w.agent.facing := by
  rw [Frame.repeats, h.again]
  rfl

namespace Machine

variable {w : World} {f : Frame} {header move : Line} {tail : List Line} {cell : Position} {p : Progress σ}

/-- Where the front is blocked the loop is left. -/
theorem run_of_blocked (hf : f.Strides header move tail) (hblocked : w.isBlocked cell w.agent.facing = true)
    (hp : p.world = w.placed cell) (below : List Frame) :
    run s ⟨p, f.resume [] :: below⟩ = run s ⟨p, below⟩ := by
  rw [run_at_end, hp, hf.repeats, hblocked, if_neg (by decide)]

theorem run_of_clear (hf : f.Strides header move tail) (hclear : w.isBlocked cell w.agent.facing = false)
    (hp : p.world = w.placed cell) (below : List Frame) :
    run s ⟨p, f.resume [] :: below⟩ = s.visit move tail p >>= fun v =>
      run s ⟨v.progress, v.entered.toList ++ f.resume v.resume :: below⟩ := by
  rw [run_at_end, hp, hf.repeats, hclear, if_pos (by decide), hf.body, run_visited p f hf.lines.isCounted_move]

/-- One turn of the loop through a clear edge, while the limit lasts. -/
theorem run_stride (hf : f.Strides header move tail) (hclear : w.isBlocked cell w.agent.facing = false)
    {next : Position} (hstep : cell.step? w.agent.facing = some next) (hp : p.world = w.placed cell)
    (hlimit : p.steps + 1 ≤ s.limit) (below : List Frame) :
    ∃ q, run s ⟨p, f.resume [] :: below⟩ = run s ⟨q, f.resume [] :: below⟩ ∧ q.world = w.placed next ∧
      q.steps = p.steps + 1 ∧ q.history = ⟨.move, w.placed next⟩ :: p.history := by
  have hmoved : Command.move.apply p.world = .ok (w.placed next) := by
    obtain ⟨cell', hcell', hmoved⟩ := Command.exists_moved (w := w.placed cell) hclear
    rw [show cell' = next from Option.some.inj (hcell'.symm.trans hstep)] at hmoved
    rw [hp, hmoved]
    rfl
  obtain ⟨q, hvisit, hq⟩ := Setting.visit_move hlimit hmoved hf.lines.moves tail
  refine ⟨q, ?_, hq⟩
  have hpassed := run_passed (s := s) hf.lines.passed q f [] below
  rw [List.append_nil] at hpassed
  rw [run_of_clear hf hclear hp, hvisit, ← hpassed]
  rfl

/-- The loop goes all the way up to the wall if the limit lets it. -/
theorem run_way (hf : f.Strides header move tail) {n : Nat} {finish : Position}
    (hway : w.Way w.agent.facing cell n finish) (hp : p.world = w.placed cell)
    (hlimit : p.steps + n ≤ s.limit) (below : List Frame) :
    ∃ q, run s ⟨p, f.resume [] :: below⟩ = run s ⟨q, below⟩ ∧ q.world = w.placed finish ∧
      q.steps = p.steps + n ∧
      q.history.map (·.action) = List.replicate n .move ++ p.history.map (·.action) := by
  induction hway generalizing p with
  | here hblocked => exact ⟨p, run_of_blocked hf hblocked hp below, hp, rfl, rfl⟩
  | @step cell next finish n hclear hstep hway ih =>
      have hroom : p.steps + 1 ≤ s.limit := by omega
      obtain ⟨q, hrun, hworld, hsteps, hhistory⟩ := run_stride hf hclear hstep hp hroom below
      obtain ⟨r, hrun', hworld', hsteps', hhistory'⟩ := ih hworld (by omega)
      refine ⟨r, hrun.trans hrun', hworld', by omega, ?_⟩
      rw [hhistory', hhistory, List.replicate_succ', List.append_assoc]
      rfl

/-- A limit on the way cuts the loop off. -/
theorem run_way_cut (hf : f.Strides header move tail) {n : Nat} {finish : Position}
    (hway : w.Way w.agent.facing cell n finish) (hp : p.world = w.placed cell)
    (hsteps : p.steps ≤ s.limit) (hlimit : s.limit < p.steps + n) (below : List Frame) :
    ∃ stop, run s ⟨p, f.resume [] :: below⟩ = .error stop ∧ stop.error = .stepLimit s.limit ∧
      stop.progress.history.map (·.action) =
        List.replicate (s.limit - p.steps) .move ++ p.history.map (·.action) := by
  induction hway generalizing p with
  | here => omega
  | @step cell next finish n hclear hstep hway ih =>
      by_cases hlast : s.limit = p.steps
      · refine ⟨⟨.stepLimit s.limit, p.count move.number⟩, ?_, rfl, ?_⟩
        · rw [run_of_clear hf hclear hp, Setting.visit_past_limit (by omega)]
          rfl
        · rw [hlast, Nat.sub_self]
          rfl
      · have hroom : p.steps + 1 ≤ s.limit := by omega
        obtain ⟨q, hrun, hworld, hq, hhistory⟩ := run_stride hf hclear hstep hp hroom below
        obtain ⟨stop, hstop, herror, hactions⟩ := ih hworld (by omega) (by omega)
        refine ⟨stop, hrun.trans hstop, herror, ?_⟩
        have hmoves : s.limit - p.steps = s.limit - q.steps + 1 := by omega
        rw [hactions, hhistory, hmoves, List.replicate_succ', List.append_assoc]
        rfl

/-- Where the header of the loop is counted, the run goes on as that of the loop at its end, which looks at
its condition again. -/
theorem run_header (hwalks : Line.Walks header move tail) (hlimit : p.steps + 1 ≤ s.limit) (main : Frame)
    (below : List Frame) :
    ∃ f : Frame, f.Strides header move tail ∧ run s ⟨p, main.resume (header :: move :: tail) :: below⟩ =
      run s ⟨p.count header.number, f.resume [] :: main.resume [] :: below⟩ := by
  have hname : Condition.ofName? "front_is_clear" = some .frontIsClear := by decide
  have hvisit := Setting.visit_within_limit hlimit header (move :: tail)
  rw [Setting.carryOut, hwalks.asks] at hvisit
  dsimp only at hvisit
  rw [Setting.enterLoop_of_counts hname hwalks.any_isCounted, hwalks.afterBlock] at hvisit
  refine ⟨.loop .frontIsClear _ hwalks.any_isCounted, ⟨hwalks, hwalks.block, rfl⟩, ?_⟩
  rw [run_visited p main hwalks.isCounted, hvisit, run_at_end]
  change _ = if Condition.frontIsClear.holds (p.count header.number).world then _ else _
  cases Condition.frontIsClear.holds (p.count header.number).world with
  | true => rfl
  | false => rfl

end Machine

end Loop

/-! ### The script -/

/-- A word that is spelled out, where that it is one can be checked. -/
def Word.spelled (text : Text) (h : (!text.isEmpty && text.all Text.isWordChar) = true) : Word where
  text
  nonempty := by
    rintro rfl
    cases h
  wordChars := List.all_eq_true.1 (Bool.and_eq_true_iff.1 h).2

/-- The plan of walking up to the wall. -/
def Plan.walk : Plan where
  routines :=
    let clear := Word.spelled "front_is_clear".toList rfl
    let move := Word.spelled "move".toList rfl
    [⟨.spelled "main".toList rfl, .loop clear (.call move) .nil, .nil⟩]
  distinct := List.pairwise_singleton _ _
  hasEntryPoint := List.mem_singleton.2 rfl

/-- The script that walks up to the wall, with any number of line feeds behind its last line. -/
def walkScript (feeds : Nat) : String :=
  Text.script ["def main():".toList, "    while front_is_clear():".toList, "        move()".toList] feeds

theorem walkScript_eq (feeds : Nat) : walkScript feeds = Plan.walk.render feeds := by
  have hlines : Plan.walk.lines =
      ["def main():".toList, "    while front_is_clear():".toList, "        move()".toList] := by
    decide
  rw [walkScript, ← hlines]
  rfl

/-- The code of the script is a loop with a move in its block, and lines that do not count. -/
theorem body?_walkScript (feeds : Nat) :
    ∃ lead header move tail,
      (Code.ofProgram (Program.parse (walkScript feeds))).body? entryPoint =
        some (lead ++ header :: move :: tail) ∧
      (∀ l ∈ lead, l.isCounted = false) ∧ Line.Walks header move tail := by
  have hshown := Plan.walk.shown_body? feeds entryPoint
  rw [← walkScript_eq] at hshown
  generalize (Code.ofProgram (Program.parse (walkScript feeds))).body? entryPoint = found at hshown ⊢
  cases hshown with
  | some hbody =>
      obtain ⟨depth, lead, tail, hlead, htail, rfl⟩ := hbody
      refine ⟨lead, _, _, tail, rfl, fun l hl => (hlead l hl).isCounted,
        congrArg Statement.whileLoop String.ofList_toList, congrArg Statement.call String.ofList_toList,
        fun l hl => (htail l hl).isCounted, ?_⟩
      have hblank : tail.takeWhile (fun l => (l.margin?).all (4 * (depth + 1) ≤ ·)) = tail := by
        rw [List.takeWhile_eq_self_iff]
        intro l hl
        rw [(htail l hl).margin?]
        rfl
      refine (Line.block_lines_append (depth + 1) _ (.call _) .nil tail).trans ?_
      rw [hblank]
      rfl

/-- The script runs as the block of its entry point, from the header of the loop on. -/
theorem runScript_walkScript (feeds : Nat) (w : World) (limit : Nat) :
    ∃ (main : Frame) (header move : Line) (tail : List Line), main.again = none ∧
      Line.Walks header move tail ∧
      runScript (walkScript feeds) w limit =
        .ofEnd (Machine.run (.ofScript (walkScript feeds) limit)
          ⟨.start w (), [main.resume (header :: move :: tail)]⟩) := by
  obtain ⟨lead, header, move, tail, hbody, hlead, hwalks⟩ := body?_walkScript feeds
  refine ⟨.once (lead ++ header :: move :: tail), header, move, tail, rfl, hwalks, ?_⟩
  rcases runScript_eq (walkScript feeds) w limit with ⟨hnone, -⟩ | ⟨-, hrun⟩
  · rw [hbody] at hnone
    cases hnone
  · rw [hrun, Machine.load, hbody, ← Machine.run_passed hlead]
    rfl

/-- As soon as the header of the loop has been counted, only the loop is left to run. -/
theorem runScript_walkScript_loop (feeds : Nat) (w : World) {limit : Nat} (hlimit : 1 ≤ limit) :
    ∃ (main f : Frame) (header move : Line) (tail : List Line) (p : Progress Unit), main.again = none ∧
      f.Strides header move tail ∧ p.world = w ∧ p.steps = 1 ∧ p.history = [] ∧
      runScript (walkScript feeds) w limit =
        .ofEnd (Machine.run (.ofScript (walkScript feeds) limit) ⟨p, [f.resume [], main.resume []]⟩) := by
  obtain ⟨main, header, move, tail, hmain, hwalks, hrun⟩ := runScript_walkScript feeds w limit
  obtain ⟨f, hf, hloop⟩ := Machine.run_header (s := .ofScript (walkScript feeds) limit)
    (p := .start w ()) hwalks hlimit main []
  exact ⟨main, f, header, move, tail, (Progress.start w ()).count header.number, hmain, hf, rfl, rfl, rfl,
    hrun.trans (congrArg RunResult.ofEnd hloop)⟩

theorem Outcome.actions_of_history {p : Progress Unit} {n : Nat}
    (h : p.history.map (·.action) = List.replicate n .move) :
    (ofProgress p).actions = List.replicate n .move := by
  rw [actions, ofProgress, List.map_reverse, h, List.reverse_replicate]

section Script

variable {w : World} {n : Nat} {finish : Position} (hway : w.Way w.agent.facing w.agent.cell n finish)
include hway

/-- The walk succeeds if the limit leaves room for the header of the loop and for all moves. -/
theorem runScript_walkScript_ok (feeds : Nat) {limit : Nat} (hlimit : n + 1 ≤ limit) :
    ∃ o, runScript (walkScript feeds) w limit = .ok o ∧ o.actions = List.replicate n .move ∧
      o.steps = n + 1 ∧ o.world = w.placed finish := by
  obtain ⟨main, f, _, _, _, p, hmain, hf, hworld, hsteps, hhistory, hrun⟩ :=
    runScript_walkScript_loop feeds w (Nat.le_trans (Nat.le_add_left 1 n) hlimit)
  have hroom : p.steps + n ≤ limit := by omega
  obtain ⟨q, hwalk, hworld', hsteps', hactions⟩ :=
    Machine.run_way (s := .ofScript (walkScript feeds) limit) hf hway hworld hroom [main.resume []]
  refine ⟨.ofProgress q, ?_, ?_, ?_, hworld'⟩
  · rw [hrun, hwalk, Machine.run_main_at_end hmain]
    rfl
  · apply Outcome.actions_of_history
    rw [hactions, hhistory, List.map_nil, List.append_nil]
  · show q.steps = n + 1
    omega

/-- A smaller limit cuts the walk off at the line that is one too many: at once if not even the header of
the loop may be counted, and else after as many moves as may be counted behind it. -/
theorem runScript_walkScript_cut (feeds : Nat) {limit : Nat} (hlimit : limit < n + 1) :
    ∃ failure, runScript (walkScript feeds) w limit = .error failure ∧
      failure.error = .stepLimit limit ∧
      failure.reached.actions = List.replicate (max limit 1 - 1) .move := by
  cases limit with
  | zero =>
      obtain ⟨main, _, _, _, -, hwalks, hrun⟩ := runScript_walkScript feeds w 0
      rw [Machine.run_visited _ main hwalks.isCounted, Setting.visit_past_limit (Nat.succ_pos _)] at hrun
      exact ⟨_, hrun, rfl, rfl⟩
  | succ moves =>
      obtain ⟨main, f, _, _, _, p, -, hf, hworld, hsteps, hhistory, hrun⟩ :=
        runScript_walkScript_loop feeds w (Nat.succ_pos moves)
      have hfirst : p.steps ≤ moves + 1 := by omega
      have hshort : moves + 1 < p.steps + n := by omega
      obtain ⟨stop, hstop, herror, hactions⟩ := Machine.run_way_cut
        (s := .ofScript (walkScript feeds) (moves + 1)) hf hway hworld hfirst hshort [main.resume []]
      refine ⟨.ofStop stop, ?_, herror, ?_⟩
      · rw [hrun, hstop]
        rfl
      · have hmoves : max (moves + 1) 1 - 1 = moves + 1 - p.steps := by omega
        rw [hmoves]
        apply Outcome.actions_of_history
        rw [hactions, hhistory, List.map_nil, List.append_nil]
        rfl

end Script

/-- A walk up to the wall. There is a first blocked edge ahead, after some number of steps. The script gets
there if and only if the limit is greater than that number. Then it has made that many moves and counted
one line more, the robot is that many cells ahead with its front blocked, and nothing else has changed. If
not, it stops at the limit, and its moves are all lines that it was allowed to count but the first. -/
theorem walk_to_the_wall (w : World) :
    ∃ n, (w.BlockedAfter n ∧ ∀ m < n, ¬ w.BlockedAfter m) ∧
      ∀ feeds limit,
        ((∃ o, runScript (walkScript feeds) w limit = .ok o) ↔ n + 1 ≤ limit) ∧
        (∀ o, runScript (walkScript feeds) w limit = .ok o →
          o.actions = List.replicate n .move ∧ o.steps = n + 1 ∧
          (∃ cell, w.agent.cell.ahead? w.agent.facing n = some cell ∧ o.world = w.placed cell) ∧
          Condition.frontIsBlocked.holds o.world = true) ∧
        (∀ failure, runScript (walkScript feeds) w limit = .error failure →
          failure.error = .stepLimit limit ∧
          failure.reached.actions = List.replicate (max limit 1 - 1) .move) := by
  obtain ⟨n, finish, hway⟩ := w.exists_way w.agent.facing w.agent.cell
  refine ⟨n, hway.least, fun feeds limit => ?_⟩
  by_cases hlimit : n + 1 ≤ limit
  · obtain ⟨o, hrun, hactions, hsteps, hworld⟩ := runScript_walkScript_ok hway feeds hlimit
    rw [hrun]
    refine ⟨iff_of_true ⟨o, rfl⟩ hlimit, ?_, ?_⟩
    · rintro _ ⟨⟩
      refine ⟨hactions, hsteps, ⟨finish, hway.ends.1, hworld⟩, ?_⟩
      rw [hworld]
      exact hway.ends.2
    · rintro _ ⟨⟩
  · obtain ⟨failure, hrun, herror, hactions⟩ := runScript_walkScript_cut hway feeds (Nat.not_le.1 hlimit)
    rw [hrun]
    refine ⟨iff_of_false ?_ hlimit, ?_, ?_⟩
    · rintro ⟨_, ⟨⟩⟩
    · rintro _ ⟨⟩
    · rintro _ ⟨⟩
      exact ⟨herror, hactions⟩

/-- In a corridor of four cells with a wall in its middle there is one move to make. -/
theorem walk_to_the_wall_corridor :
    let w := World.addWall (.ofSize 4 1) ⟨⟨3, 1⟩, .west⟩
    walkScript 1 = "def main():\n    while front_is_clear():\n        move()\n" ∧
    (∃ o, runScript (walkScript 1) w 2 = .ok o ∧ o.actions = [.move] ∧ o.steps = 2 ∧
      o.world = w.placed ⟨2, 1⟩ ∧ Condition.frontIsBlocked.holds o.world = true) ∧
    (∃ failure, runScript (walkScript 1) w 1 = .error failure ∧ failure.error = .stepLimit 1 ∧
      failure.reached.actions = []) := by
  intro w
  obtain ⟨n, ⟨hblocked, hleast⟩, hwalk⟩ := walk_to_the_wall w
  have hfirst : w.BlockedAfter 1 := ⟨⟨2, 1⟩, by decide, by decide⟩
  have hclear : ¬ w.BlockedAfter 0 := by
    rintro ⟨cell, ⟨⟩, hcell⟩
    exact absurd hcell (by decide)
  have hn : n = 1 := by
    have hle : n ≤ 1 := Nat.not_lt.1 fun hlt => hleast 1 hlt hfirst
    have hne : n ≠ 0 := fun hzero => hclear (hzero ▸ hblocked)
    omega
  subst hn
  obtain ⟨hok, hreached, -⟩ := hwalk 1 2
  obtain ⟨hshort, -, hcut⟩ := hwalk 1 1
  refine ⟨by decide, ?_, ?_⟩
  · obtain ⟨o, ho⟩ := hok.2 (Nat.le_refl 2)
    obtain ⟨hactions, hsteps, ⟨cell, hcell, hworld⟩, hfront⟩ := hreached o ho
    cases hcell
    exact ⟨o, ho, hactions, hsteps, hworld, hfront⟩
  · cases hrun : runScript (walkScript 1) w 1 with
    | ok o => exact absurd (hshort.1 ⟨o, hrun⟩) (by decide)
    | error failure => exact ⟨failure, rfl, hcut failure hrun⟩

end GridRobot
