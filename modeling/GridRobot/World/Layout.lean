import GridRobot.World.Position

/-!
# Beeper layouts

A layout lists the cells that hold beepers in ascending order, each with its count. No cell is listed
twice and none with a count of zero, so a layout is determined by its counts. The rest of the library
changes layouts through `set` and reads them through `count`.
-/

namespace GridRobot

/-- Beepers on one cell. -/
structure Pile where
  cell : Position
  count : UInt32
  deriving DecidableEq, Repr, Inhabited

namespace Pile

/-- The list with the pile of one cell put in its place. -/
def put (cell : Position) (count : UInt32) : List Pile → List Pile
  | [] => [⟨cell, count⟩]
  | p :: ps =>
      if cell < p.cell then ⟨cell, count⟩ :: p :: ps
      else if p.cell = cell then ⟨cell, count⟩ :: ps
      else p :: put cell count ps

/-- The list without the pile of one cell. -/
def drop (cell : Position) (ps : List Pile) : List Pile := ps.filter (·.cell ≠ cell)

/-- The count that a list gives for a cell, zero where the cell is not listed. -/
def countIn (ps : List Pile) (cell : Position) : UInt32 :=
  match ps.find? (·.cell = cell) with
  | some p => p.count
  | none => 0

/-- Cells strictly ascending. -/
def Ascending (ps : List Pile) : Prop := ps.Pairwise fun p q => p.cell < q.cell

theorem mem_put {cell : Position} {count : UInt32} {ps : List Pile} {q : Pile}
    (h : q ∈ put cell count ps) : q = ⟨cell, count⟩ ∨ q ∈ ps := by
  induction ps with
  | nil => simpa [put] using h
  | cons p ps ih =>
      simp only [put] at h
      split at h
      · simpa using h
      · split at h
        · rcases List.mem_cons.1 h with h | h
          · exact .inl h
          · exact .inr (List.mem_cons_of_mem _ h)
        · rcases List.mem_cons.1 h with h | h
          · exact .inr (h ▸ List.mem_cons_self)
          · rcases ih h with h | h
            · exact .inl h
            · exact .inr (List.mem_cons_of_mem _ h)

theorem Ascending.put {ps : List Pile} (h : Ascending ps) (cell : Position) (count : UInt32) :
    Ascending (Pile.put cell count ps) := by
  induction ps with
  | nil => simp [Ascending, Pile.put]
  | cons p ps ih =>
      obtain ⟨hp, hps⟩ := List.pairwise_cons.1 h
      simp only [Pile.put]
      split
      · next hlt =>
          refine List.pairwise_cons.2 ⟨fun q hq => ?_, h⟩
          rcases List.mem_cons.1 hq with rfl | hq
          · exact hlt
          · exact Position.lt_trans hlt (hp q hq)
      · next hnlt =>
          split
          · next heq => exact List.pairwise_cons.2 ⟨fun q hq => heq ▸ hp q hq, hps⟩
          · next hne =>
              refine List.pairwise_cons.2 ⟨fun q hq => ?_, ih hps⟩
              rcases mem_put hq with rfl | hq
              · exact Position.lt_of_not_lt hnlt hne
              · exact hp q hq

theorem Ascending.drop {ps : List Pile} (h : Ascending ps) (cell : Position) :
    Ascending (Pile.drop cell ps) :=
  List.Pairwise.filter _ h

theorem countIn_cons (p : Pile) (ps : List Pile) (cell : Position) :
    countIn (p :: ps) cell = if p.cell = cell then p.count else countIn ps cell := by
  unfold countIn
  rw [List.find?_cons]
  by_cases h : p.cell = cell <;> simp [h]

theorem countIn_put (cell : Position) (count : UInt32) (ps : List Pile) (q : Position) :
    countIn (Pile.put cell count ps) q = if cell = q then count else countIn ps q := by
  induction ps with
  | nil =>
      rw [Pile.put, countIn_cons]
  | cons p ps ih =>
      simp only [Pile.put]
      split
      · rw [countIn_cons]
      · split
        · next h =>
            rw [countIn_cons, countIn_cons, h]
            by_cases hq : cell = q <;> simp [hq]
        · next h =>
            rw [countIn_cons, countIn_cons, ih]
            by_cases hq : cell = q
            · subst hq
              simp [h]
            · simp [hq]

theorem countIn_drop (cell : Position) (ps : List Pile) (q : Position) :
    countIn (Pile.drop cell ps) q = if cell = q then 0 else countIn ps q := by
  induction ps with
  | nil => simp [Pile.drop, countIn]
  | cons p ps ih =>
      unfold Pile.drop at ih ⊢
      by_cases h : p.cell = cell
      · rw [List.filter_cons_of_neg (by simp [h]), ih, countIn_cons, h]
        by_cases hq : cell = q <;> simp [hq]
      · rw [List.filter_cons_of_pos (by simp [h]), countIn_cons, countIn_cons, ih]
        by_cases hq : cell = q
        · subst hq
          simp [h]
        · simp [hq]

/-- A cell left of all cells listed is not listed. -/
theorem countIn_eq_zero {ps : List Pile} {cell : Position} (h : ∀ p ∈ ps, cell < p.cell) :
    countIn ps cell = 0 := by
  induction ps with
  | nil => rfl
  | cons p ps ih =>
      have hne : p.cell ≠ cell := (Position.ne_of_lt (h p List.mem_cons_self)).symm
      rw [countIn_cons, if_neg hne, ih fun q hq => h q (List.mem_cons_of_mem _ hq)]

/-- Two ascending lists without empty piles that give the same counts are the same. -/
theorem eq_of_countIn {ps qs : List Pile} (hp : Ascending ps) (hq : Ascending qs)
    (hp0 : ∀ p ∈ ps, p.count ≠ 0) (hq0 : ∀ q ∈ qs, q.count ≠ 0)
    (h : ∀ cell, countIn ps cell = countIn qs cell) : ps = qs := by
  induction ps generalizing qs with
  | nil =>
      cases qs with
      | nil => rfl
      | cons q qs =>
          have := h q.cell
          rw [countIn_cons, if_pos rfl] at this
          exact absurd this.symm (hq0 q List.mem_cons_self)
  | cons p ps ih =>
      cases qs with
      | nil =>
          have := h p.cell
          rw [countIn_cons, if_pos rfl] at this
          exact absurd this (hp0 p List.mem_cons_self)
      | cons q qs =>
          obtain ⟨hpl, hps⟩ := List.pairwise_cons.1 hp
          obtain ⟨hql, hqs⟩ := List.pairwise_cons.1 hq
          have hcell : p.cell = q.cell := by
            apply Decidable.byContradiction
            intro hne
            by_cases hlt : p.cell < q.cell
            · have := h p.cell
              rw [countIn_cons, if_pos rfl, countIn_cons, if_neg (Ne.symm hne),
                countIn_eq_zero fun r hr => Position.lt_trans hlt (hql r hr)] at this
              exact hp0 p List.mem_cons_self this
            · have hgt := Position.lt_of_not_lt hlt (Ne.symm hne)
              have := h q.cell
              rw [countIn_cons, if_neg hne, countIn_cons, if_pos rfl,
                countIn_eq_zero fun r hr => Position.lt_trans hgt (hpl r hr)] at this
              exact hq0 q List.mem_cons_self this.symm
          have hcount : p.count = q.count := by
            have := h p.cell
            rwa [countIn_cons, if_pos rfl, countIn_cons, if_pos hcell.symm] at this
          have htail : ps = qs := by
            apply ih hps hqs (fun r hr => hp0 r (List.mem_cons_of_mem _ hr))
              (fun r hr => hq0 r (List.mem_cons_of_mem _ hr))
            intro cell
            by_cases hc : p.cell = cell
            · subst hc
              rw [countIn_eq_zero hpl, countIn_eq_zero (hcell ▸ hql)]
            · have := h cell
              rwa [countIn_cons, if_neg hc, countIn_cons, if_neg (hcell ▸ hc)] at this
          cases p
          cases q
          simp_all

end Pile

/-- Which cells hold beepers, and how many. -/
structure Layout where
  piles : List Pile
  ascending : Pile.Ascending piles
  positive : ∀ p ∈ piles, p.count ≠ 0

namespace Layout

theorem eq_of_piles {l m : Layout} (h : l.piles = m.piles) : l = m := by
  cases l
  cases m
  simp_all

instance : DecidableEq Layout := fun l m =>
  if h : l.piles = m.piles then isTrue (eq_of_piles h) else isFalse fun e => h (e ▸ rfl)

def empty : Layout := ⟨[], List.Pairwise.nil, by simp⟩

instance : Inhabited Layout := ⟨empty⟩

/-- The number of beepers on a cell. -/
def count (l : Layout) (cell : Position) : UInt32 := Pile.countIn l.piles cell

/-- The layout with the count of one cell replaced; a count of zero clears the cell. -/
def set (l : Layout) (cell : Position) (count : UInt32) : Layout :=
  if h : count = 0 then
    ⟨Pile.drop cell l.piles, l.ascending.drop cell,
      fun p hp => l.positive p (List.mem_filter.1 hp).1⟩
  else
    ⟨Pile.put cell count l.piles, l.ascending.put cell count, fun p hp => by
      rcases Pile.mem_put hp with rfl | hp
      · exact h
      · exact l.positive p hp⟩

@[simp] theorem count_empty (cell : Position) : empty.count cell = 0 := rfl

@[simp] theorem count_set (l : Layout) (cell : Position) (count : UInt32) (q : Position) :
    (l.set cell count).count q = if cell = q then count else l.count q := by
  unfold set Layout.count
  split
  · next h => rw [h, Pile.countIn_drop]
  · rw [Pile.countIn_put]

/-- A layout is determined by its counts. -/
theorem ext_count {l m : Layout} (h : ∀ cell, l.count cell = m.count cell) : l = m :=
  eq_of_piles (Pile.eq_of_countIn l.ascending m.ascending l.positive m.positive h)

/-- One beeper more on a cell; a full cell stays as it is. -/
def add (l : Layout) (cell : Position) : Layout := l.set cell (upOrStay (l.count cell))

/-- One beeper less on a cell, if it holds one. -/
def remove? (l : Layout) (cell : Position) : Option Layout :=
  (down? (l.count cell)).map (l.set cell)

/-- The number of beepers on all cells. -/
def total (l : Layout) : Nat := l.piles.foldr (fun p n => p.count.toNat + n) 0

/-- The cells that hold beepers, ascending. -/
def cells (l : Layout) : List Position := l.piles.map (·.cell)

/-- The layout that holds the positive piles of a list; of two on one cell the later one stands. -/
def ofPiles (ps : List Pile) : Layout :=
  (ps.filter (·.count ≠ 0)).foldl (fun l p => l.set p.cell p.count) empty

end Layout

end GridRobot
