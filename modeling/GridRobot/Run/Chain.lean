import GridRobot.Run.Progress
import GridRobot.Script.Line

/-!
# Chains of branches

An `if` line is followed by any number of `elif` clauses and at most one `else` clause at its own
margin. Comments and blank lines may stand between the clauses. The chain is cut out first; then its
clauses are gone through in order, each counting as a line, and the first one that applies is chosen.
-/

namespace GridRobot

/-- An `elif` or `else` line with its block. -/
structure Clause where
  number : Nat
  /-- The condition; none for `else`. -/
  guard : Option String
  body : List Line
  deriving DecidableEq, Repr

namespace Clause

/-- The clauses at the front that carry on a chain with the given margin, and the lines behind the
chain. Lines that are passed over in search of a clause that does not come are left where they are. -/
def chain (margin : Option Nat) (lines : List Line) : List Clause × List Line :=
  match _h : lines.dropWhile (!·.isCounted) with
  | [] => ([], lines)
  | l :: rest =>
      if l.margin? = margin then
        match l.statement with
        | .elifBranch c =>
            let more := chain margin (Line.afterBlock rest)
            (⟨l.number, some c, Line.block rest⟩ :: more.1, more.2)
        | .elseBranch => ([⟨l.number, none, Line.block rest⟩], Line.afterBlock rest)
        | _ => ([], lines)
      else ([], lines)
termination_by lines.length
decreasing_by
  have h₁ : (lines.dropWhile (!·.isCounted)).length ≤ lines.length :=
    (List.dropWhile_sublist _).length_le
  have h₂ := Line.length_afterBlock_le rest
  rw [_h, List.length_cons] at h₁
  omega

variable {σ : Type}

/-- Whether a clause applies. -/
def applies (p : Progress σ) (c : Clause) : Except (Stop σ) Bool :=
  match c.guard with
  | some condition => (p.resolve c.number condition).map (·.holds p.world)
  | none => .ok true

/-- Goes through the clauses of a chain. `chosen` is the block chosen so far; once there is one, the
conditions of later clauses are not looked at. -/
def choose (limit : Nat) : List Clause → Option (List Line) → Progress σ →
    Except (Stop σ) (Option (List Line) × Progress σ)
  | [], chosen, p => .ok (chosen, p)
  | c :: cs, chosen, p => do
      let p ← p.visit limit c.number
      match chosen with
      | some body => choose limit cs (some body) p
      | none => choose limit cs (if ← c.applies p then some c.body else none) p

theorem steps_choose {limit : Nat} {cs : List Clause} {chosen chosen' : Option (List Line)}
    {p q : Progress σ} (h : choose limit cs chosen p = .ok (chosen', q)) (hp : p.steps ≤ limit) :
    p.steps ≤ q.steps ∧ q.steps ≤ limit := by
  induction cs generalizing chosen p with
  | nil =>
      cases h
      exact ⟨Nat.le_refl _, hp⟩
  | cons c cs ih =>
      simp only [choose, bind, Except.bind] at h
      split at h
      · simp at h
      · next p' hv =>
          have hv := Progress.visit_eq_ok hv
          have hle : p.steps ≤ p'.steps := by omega
          split at h
          · have := ih h hv.2
            exact ⟨Nat.le_trans hle this.1, this.2⟩
          · split at h
            · simp at h
            · have := ih h hv.2
              exact ⟨Nat.le_trans hle this.1, this.2⟩

end Clause

end GridRobot
