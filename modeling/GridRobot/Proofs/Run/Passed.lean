import GridRobot.Proofs.Run.Retelling

/-!
# Lines that are passed over

A line that is not counted does nothing, but unless it is blank it has a margin, and so it may set the
margin of a block or end one. Where it does neither, a run is the same without it. `Line.Settled` says so
of the block at the front of some lines, and `Line.Tame` of all blocks that may be cut out of them while
they are run. Runs of code whose bodies are tame are the runs of its counted lines alone (`run_counted`).

The proof compares courses, by induction on the room and, within a block, on the number of its lines.
-/

namespace GridRobot

/-- Whether a line of this kind is followed by a block of its own. -/
def Statement.opens : Statement → Bool
  | .whileLoop _ | .ifBranch _ | .elifBranch _ | .elseBranch => true
  | _ => false

theorem Statement.opens_of_continuesBranch {s : Statement} (h : s.continuesBranch = true) :
    s.opens = true := by
  cases s with
  | elifBranch | elseBranch => rfl
  | _ => cases h

namespace Line

/-- The lines that a run stops at. -/
def counted (lines : List Line) : List Line := lines.filter isCounted

@[simp] theorem counted_nil : counted [] = [] := rfl

theorem counted_cons_of_counted {l : Line} (hl : l.isCounted = true) (lines : List Line) :
    counted (l :: lines) = l :: counted lines := List.filter_cons_of_pos hl

theorem counted_cons_of_not_counted {l : Line} (hl : l.isCounted = false) (lines : List Line) :
    counted (l :: lines) = counted lines := List.filter_cons_of_neg (by simp [hl])

theorem counted_append (above below : List Line) :
    counted (above ++ below) = counted above ++ counted below := List.filter_append above below

theorem any_isCounted_counted (lines : List Line) :
    (counted lines).any isCounted = lines.any isCounted := by
  simp [counted, List.any_filter]

/-- The block at the front is the same without the lines that are not counted. -/
def Settled (lines : List Line) : Prop := block (counted lines) = counted (block lines)

theorem Settled.block {lines : List Line} (h : Settled lines) :
    Line.block (counted lines) = counted (Line.block lines) := h

theorem Settled.afterBlock {lines : List Line} (h : Settled lines) :
    Line.afterBlock (counted lines) = counted (Line.afterBlock lines) := by
  have hlines := block_append_afterBlock (counted lines)
  have hsplit := counted_append (Line.block lines) (Line.afterBlock lines)
  rw [h] at hlines
  rw [block_append_afterBlock] at hsplit
  exact List.append_cancel_left (hlines.trans hsplit)

/-- So is every block that may be cut out of the lines while they are run. -/
def Tame (lines : List Line) : Prop :=
  ∀ l rest, l :: rest <:+: lines → l.statement.opens = true → Settled rest

theorem isInfix_block (lines : List Line) : block lines <:+: lines :=
  ⟨[], Line.afterBlock lines, block_append_afterBlock lines⟩

theorem isInfix_afterBlock (lines : List Line) : Line.afterBlock lines <:+: lines :=
  (List.drop_suffix _ lines).isInfix

theorem Tame.of_isInfix {lines lines' : List Line} (h : Tame lines) (hwithin : lines' <:+: lines) : Tame lines' :=
  fun l rest hrest => h l rest (hrest.trans hwithin)

namespace Tame

variable {l : Line} {rest : List Line} (h : Tame (l :: rest))

include h

theorem settled (hopens : l.statement.opens = true) : Settled rest := h l rest List.infix_rfl hopens

theorem tail : Tame rest := h.of_isInfix (List.suffix_cons l rest).isInfix

theorem block : Tame (Line.block rest) := h.tail.of_isInfix (isInfix_block rest)

theorem afterBlock : Tame (Line.afterBlock rest) := h.tail.of_isInfix (isInfix_afterBlock rest)

end Tame

theorem Tame.of_mem_ite {lines : List Line} (h : Tame lines) (taken : Bool) :
    ∀ body ∈ (if taken then some lines else none), Tame body := by
  cases taken with
  | true => exact fun body hbody => Option.some.inj hbody ▸ h
  | false => exact fun body hbody => nomatch hbody

theorem ite_counted (lines : List Line) (taken : Bool) :
    (if taken then some (counted lines) else none) = (if taken then some lines else none).map counted := by
  cases taken <;> rfl

end Line

/-- Code that holds the counted lines of other code, all of whose bodies are tame. -/
structure Code.Spares (code code' : Code) : Prop where
  body? : ∀ name, code'.body? name = (code.body? name).map Line.counted
  tame : ∀ name, ∀ body ∈ code.body? name, Line.Tame body

section Courses

variable {σ : Type} {code code' : Code} {limit : Nat} {observe : σ → Entry → σ}

/-- With this much room, the lines that are not counted make no difference to the course of a block. -/
def Code.Agrees (code code' : Code) (limit : Nat) (observe : σ → Entry → σ) (room : Nat) : Prop :=
  ∀ lines, Line.Tame lines → ∀ p,
    Setting.exec ⟨code', limit, observe⟩ room (Line.counted lines) p =
      Setting.exec ⟨code, limit, observe⟩ room lines p

theorem enter_counted {room : Nat} (hroom : ∀ n < room, code.Agrees code' limit observe n)
    {block : Option (List Line)} (hblock : ∀ body ∈ block, Line.Tame body) (p : Progress σ) :
    Setting.enter ⟨code', limit, observe⟩ room (block.map Line.counted) p =
      Setting.enter ⟨code, limit, observe⟩ room block p := by
  rw [Setting.enter.eq_def, Setting.enter.eq_def]
  cases block with
  | none => rfl
  | some body =>
      cases room with
      | zero => rfl
      | succ room => exact hroom room (Nat.lt_succ_self room) body (hblock body rfl) p

theorem again_counted {room : Nat} (hroom : ∀ n < room, code.Agrees code' limit observe n)
    (c : Condition) {body : List Line} (hbody : Line.Tame body) (p : Progress σ) :
    Setting.again ⟨code', limit, observe⟩ room c (Line.counted body) p =
      Setting.again ⟨code, limit, observe⟩ room c body p := by
  induction room generalizing p with
  | zero =>
      rw [Setting.again.eq_def, Setting.again.eq_def, Line.any_isCounted_counted]
  | succ room ih =>
      have hagain := ih fun n hn => hroom n (Nat.lt_succ_of_lt hn)
      have hexec := hroom room (Nat.lt_succ_self room) body hbody
      rw [Setting.again.eq_def, Setting.again.eq_def, Line.any_isCounted_counted]
      simp only [hexec, hagain]

theorem call_counted (hcode : code.Spares code') {room : Nat}
    (hroom : ∀ n < room, code.Agrees code' limit observe n) (number : Nat) (name : String)
    (p : Progress σ) :
    Setting.call ⟨code', limit, observe⟩ room number name p =
      Setting.call ⟨code, limit, observe⟩ room number name p := by
  rw [Setting.call, Setting.call]
  dsimp only
  cases Command.ofName? name with
  | some action => rfl
  | none =>
      rw [hcode.body?]
      cases hbody : code.body? name with
      | none => rfl
      | some body =>
          have htame : ∀ b ∈ some body, Line.Tame b := hbody ▸ hcode.tame name
          exact enter_counted hroom htame p

/-- The clauses behind an `if`, given the courses of no more lines than there are. -/
theorem clauses_counted {room : Nat} (hroom : ∀ n < room, code.Agrees code' limit observe n) {bound : Nat}
    (hexec : ∀ lines, lines.length ≤ bound → Line.Tame lines → ∀ p,
      Setting.exec ⟨code', limit, observe⟩ room (Line.counted lines) p =
        Setting.exec ⟨code, limit, observe⟩ room lines p)
    (margin : Option Nat) {lines : List Line} (hbound : lines.length ≤ bound) (hlines : Line.Tame lines)
    {chosen : Option (List Line)} (hchosen : ∀ body ∈ chosen, Line.Tame body) (p : Progress σ) :
    Setting.clauses ⟨code', limit, observe⟩ room margin (chosen.map Line.counted) (Line.counted lines) p =
      Setting.clauses ⟨code, limit, observe⟩ room margin chosen lines p := by
  induction hn : lines.length using Nat.strongRecOn generalizing lines chosen p with
  | _ n ih =>
      cases lines with
      | nil =>
          rw [Line.counted_nil, Setting.clauses, Setting.clauses]
          exact enter_counted hroom hchosen p
      | cons l rest =>
          rw [List.length_cons] at hn hbound
          have hafter := Line.length_afterBlock_le rest
          have hbehind : ∀ chosen : Option (List Line), (∀ body ∈ chosen, Line.Tame body) → ∀ p,
              Setting.clauses ⟨code', limit, observe⟩ room margin (chosen.map Line.counted)
                  (Line.counted (Line.afterBlock rest)) p =
                Setting.clauses ⟨code, limit, observe⟩ room margin chosen (Line.afterBlock rest) p :=
            fun _ hchosen p => ih (Line.afterBlock rest).length (by omega) (by omega) hlines.afterBlock hchosen p rfl
          cases hl : l.isCounted with
          | false =>
              have hskip : l.statement = .skip := by simpa [Line.isCounted] using hl
              rw [Line.counted_cons_of_not_counted hl, Setting.clauses.eq_def ⟨code, limit, observe⟩]
              dsimp only
              rw [if_pos hskip]
              exact ih rest.length (by omega) (by omega) hlines.tail hchosen p rfl
          | true =>
              have hskip : ¬ l.statement = .skip := by simpa [Line.isCounted] using hl
              have hwhole := hexec (l :: rest) hbound hlines
              rw [Line.counted_cons_of_counted hl] at hwhole ⊢
              rw [Setting.clauses, Setting.clauses, if_neg hskip, if_neg hskip]
              dsimp only
              split
              · next hclause =>
                  have hsettled := hlines.settled (Statement.opens_of_continuesBranch hclause.2)
                  rw [hsettled.block, hsettled.afterBlock]
                  congr 1
                  funext q
                  cases hs : l.statement with
                  | elifBranch condition =>
                      cases chosen with
                      | some body => exact hbehind (some body) hchosen q
                      | none =>
                          dsimp only [Option.map_none]
                          congr 1
                          funext c
                          have htaken := Line.Tame.of_mem_ite hlines.block (c.holds q.world)
                          rw [Line.ite_counted]
                          exact hbehind _ htaken q
                  | elseBranch =>
                      have htaken : ∀ body ∈ some (chosen.getD (Line.block rest)), Line.Tame body := by
                        intro body hbody
                        cases hbody
                        cases chosen with
                        | some body => exact hchosen body rfl
                        | none => exact hlines.block
                      have hentered := enter_counted hroom htaken q
                      have hrest := hexec (Line.afterBlock rest) (by omega) hlines.afterBlock
                      rw [Option.map_some, ← Option.getD_map Line.counted] at hentered
                      dsimp only
                      rw [hentered]
                      simp only [hrest]
                  | _ =>
                      rw [hs] at hclause
                      cases hclause.2
              · next hother =>
                  simp only [enter_counted hroom hchosen, hwhole]

theorem exec_counted (hcode : code.Spares code') (room : Nat) : code.Agrees code' limit observe room := by
  induction room using Nat.strongRecOn with
  | _ room hroom =>
      intro lines hlines p
      induction hn : lines.length using Nat.strongRecOn generalizing lines p with
      | _ n ih =>
          cases lines with
          | nil => rw [Line.counted_nil, Setting.exec_nil, Setting.exec_nil]
          | cons l rest =>
              rw [List.length_cons] at hn
              have hafter := Line.length_afterBlock_le rest
              have hshorter : ∀ lines : List Line, lines.length ≤ rest.length → Line.Tame lines → ∀ p,
                  Setting.exec ⟨code', limit, observe⟩ room (Line.counted lines) p =
                    Setting.exec ⟨code, limit, observe⟩ room lines p :=
                fun lines hlength hlines p => ih lines.length (by omega) lines hlines p rfl
              have hrest := hshorter rest (Nat.le_refl _) hlines.tail
              have hbehind := hshorter (Line.afterBlock rest) hafter hlines.afterBlock
              cases hl : l.isCounted with
              | false =>
                  rw [Line.counted_cons_of_not_counted hl, Setting.exec_cons_of_not_counted _ room hl, hrest]
              | true =>
                  have hskip : ¬ l.statement = .skip := by simpa [Line.isCounted] using hl
                  rw [Line.counted_cons_of_counted hl, Setting.exec, Setting.exec]
                  dsimp only
                  cases hs : l.statement with
                  | skip => exact absurd hs hskip
                  | whileLoop condition =>
                      have hsettled := hlines.settled (by rw [hs]; rfl)
                      have hagain := fun c p => again_counted hroom c hlines.block p
                      dsimp only
                      rw [hsettled.block, hsettled.afterBlock]
                      simp only [hagain, hbehind]
                  | ifBranch condition =>
                      have hsettled := hlines.settled (by rw [hs]; rfl)
                      dsimp only
                      rw [hsettled.block, hsettled.afterBlock]
                      simp only [Line.ite_counted]
                      congr 1
                      funext q
                      congr 1
                      funext c
                      exact clauses_counted hroom hshorter l.margin? hafter hlines.afterBlock
                        (Line.Tame.of_mem_ite hlines.block (c.holds q.world)) q
                  | call name => simp only [call_counted hcode hroom, hrest]
                  | _ => simp only [hrest]

end Courses

/-! ### Runs -/

/-- Blocks that have the same courses have the same runs. -/
theorem Machine.run_eq_of_exec {σ : Type} {s s' : Setting σ} {body body' : List Line} {p : Progress σ}
    (h : ∀ room, s'.exec room body' p = s.exec room body p) :
    Machine.run s' ⟨p, [.once body']⟩ = Machine.run s ⟨p, [.once body]⟩ := by
  obtain ⟨enough, henough⟩ := Machine.exec_eq_run s body p
  obtain ⟨enough', henough'⟩ := Machine.exec_eq_run s' body' p
  rcases henough (max enough enough') with hexec | ⟨-, hlt⟩
  · rcases henough' (max enough enough') with hexec' | ⟨-, hlt⟩
    · have hcourse := hexec'.symm.trans ((h _).trans hexec)
      exact Option.some.inj hcourse
    · omega
  · omega

theorem runBody_counted {σ : Type} {code code' : Code} (hcode : code.Spares code') {body : List Line}
    (hbody : Line.Tame body) (limit : Nat) (observe : σ → Entry → σ) (world : World) (seen : σ) :
    Setting.runBody ⟨code', limit, observe⟩ (Line.counted body) world seen =
      Setting.runBody ⟨code, limit, observe⟩ body world seen := by
  unfold Setting.runBody
  rw [Machine.run_eq_of_exec fun room => exec_counted hcode room body hbody (.start world seen)]

/-- A program all of whose bodies are tame runs as the counted lines of its code do. -/
theorem Program.run_counted {program : Program} {code' : Code}
    (hcode : (Code.ofProgram program).Spares code') (limit : Nat) (world : World) :
    program.run limit world = code'.run limit world := by
  unfold Program.run Program.runObserved Code.run
  dsimp only
  rw [hcode.body?]
  cases hbody : (Code.ofProgram program).body? entryPoint with
  | none => rfl
  | some body =>
      have htame := hcode.tame entryPoint body hbody
      exact congrArg Prod.fst (runBody_counted hcode htame limit _ world ()).symm

/-- Programs whose bodies are the same up to lines that are passed over have the same runs. -/
theorem Program.run_of_bodies {program program' : Program}
    (hbodies : program.procedures.map (fun q => (q.name, Line.tidy id q.body.read)) =
      program'.procedures.map fun q => (q.name, Line.counted q.body.read))
    (htame : ∀ q ∈ program'.procedures, Line.Tame q.body.read) (limit : Nat) (world : World) :
    program'.run limit world = program.run limit world := by
  have hcode : (Code.ofProgram program).tidy id =
      ⟨(Code.ofProgram program').bodies.map (Prod.map id Line.counted)⟩ := by
    unfold Code.tidy Code.ofProgram
    rw [List.map_map, List.map_map, List.map_reverse, List.map_reverse]
    exact congrArg (fun bodies => Code.mk bodies.reverse) hbodies
  have hspares : (Code.ofProgram program').Spares ((Code.ofProgram program).tidy id) := by
    constructor
    · intro name
      rw [hcode, Code.body?_map]
    · intro name body hbody
      rw [Code.body?_ofProgram] at hbody
      obtain ⟨q, hfind, rfl⟩ := Option.map_eq_some_iff.1 hbody
      exact htame q (List.mem_filter.1 (List.mem_of_getLast? hfind)).1
  have htidied := renumber_runObserved_eq (Code.body?_tidy id (Code.ofProgram program)) limit world
    (fun (_ : Unit) _ => ()) ()
  rw [RunResult.renumber_id] at htidied
  rw [run_counted hspares, run, htidied]

end GridRobot
