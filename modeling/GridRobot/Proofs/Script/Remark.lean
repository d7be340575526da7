import Mathlib.Data.List.TakeWhile
import GridRobot.Proofs.Run.Passed

/-!
# Remarks

A line that is not counted but has a margin is a remark. Where blocks end may depend on it. It does not if
the remark yields to the line below it, that is, stands no further to the left; then any block that the
remark ends would have ended with that line. The one place where this is not what matters is right at the
start of a block, where the remark sets the margin. There the block stays what it is if the remark leads it:
the line below stands no further to the left, and the first line that ends the block without the remark
ends it with the remark too. `Line.tame_remark` puts this together for all blocks around a remark.
-/

namespace GridRobot

namespace Line

/-- A line is counted if and only if it has a margin. -/
def Plain (l : Line) : Prop := l.isCounted = l.margin?.isSome

theorem Blank.plain {l : Line} (h : l.Blank) : l.Plain := by
  rw [Plain, h.isCounted, h.margin?]
  rfl

theorem tidy_id_of_plain {lines : List Line} (h : ∀ l ∈ lines, l.Plain) : tidy id lines = counted lines := by
  induction lines with
  | nil => rfl
  | cons l lines ih =>
      obtain ⟨hl, hlines⟩ := List.forall_mem_cons.1 h
      unfold Plain at hl
      cases hcounted : l.isCounted with
      | true =>
          rw [tidy_cons_of_counted id hcounted, counted_cons_of_counted hcounted, ih hlines]
          rfl
      | false =>
          have hblank : l.Blank := by
            refine ⟨?_, by simpa [isCounted] using hcounted⟩
            rw [hcounted] at hl
            exact Option.isNone_iff_eq_none.1 (Option.isSome_eq_false_iff.1 hl.symm)
          rw [tidy_cons_of_blank id hblank, counted_cons_of_not_counted hcounted, ih hlines]

theorem settled_of_plain {lines : List Line} (h : ∀ l ∈ lines, l.Plain) : Settled lines := by
  have hblock : ∀ l ∈ block lines, l.Plain := fun l hl => h l ((isInfix_block lines).subset hl)
  have htidy := block_tidy id lines
  rwa [tidy_id_of_plain h, tidy_id_of_plain hblock] at htidy

theorem tame_of_plain {lines : List Line} (h : ∀ l ∈ lines, l.Plain) : Tame lines := by
  intro l rest hwithin _
  exact settled_of_plain fun l' hl' => h l' (hwithin.subset (List.mem_cons_of_mem l hl'))

theorem tame_cons {l : Line} {lines : List Line}
    (h : l.statement.opens = true → ∀ rest, rest <+: lines → Settled rest) (hlines : Tame lines) :
    Tame (l :: lines) := by
  intro l' rest hwithin hopens
  rcases List.infix_cons_iff.1 hwithin with hfront | hwithin
  · obtain ⟨rfl, hrest⟩ := List.cons_prefix_cons.1 hfront
    exact h hopens rest hrest
  · exact hlines l' rest hwithin hopens

/-! ### Margins -/

/-- The margins of lines, those of blank ones left away. -/
def margins (lines : List Line) : List Nat := lines.filterMap margin?

theorem margins_read (number : Nat) (ts : List Text) :
    margins (Block.read ⟨number, ts⟩) = ts.filterMap Text.margin? := by
  induction ts generalizing number with
  | nil => rfl
  | cons t ts ih =>
      have hread : (read number t).margin? = t.margin? := rfl
      unfold margins at ih ⊢
      rw [Block.read_cons, List.filterMap_cons, List.filterMap_cons, hread, ih]

/-- A remark with the margin `m` stands no further to the left than what comes next. -/
def Yields (m : Nat) (margins : List Nat) : Prop := ∀ k ∈ margins.head?, k ≤ m

/-- A remark with the margin `m` stands no further to the right than what comes next, and whatever ends the
block that starts there stands further to the left than the remark. -/
def Leads (m : Nat) (margins : List Nat) : Prop :=
  ∀ k ∈ margins.head?, m ≤ k ∧ ∀ j ∈ margins.find? (· < k), j < m

theorem Yields.of_isPrefix {m : Nat} {ms ms' : List Nat} (h : Yields m ms) (hms : ms' <+: ms) :
    Yields m ms' := by
  obtain ⟨rest, rfl⟩ := hms
  cases ms' with
  | nil => exact fun k hk => nomatch hk
  | cons k ms' => exact h

theorem Leads.of_isPrefix {m : Nat} {ms ms' : List Nat} (h : Leads m ms) (hms : ms' <+: ms) :
    Leads m ms' := by
  obtain ⟨rest, rfl⟩ := hms
  intro k hk
  cases ms' with
  | nil => cases hk
  | cons k' ms' =>
      obtain ⟨hle, hends⟩ := h k hk
      refine ⟨hle, fun j hj => hends j ?_⟩
      rw [List.find?_append, hj]
      rfl

theorem takeWhile_eq_of_find? {m k : Nat} (hmk : m ≤ k) {lines : List Line}
    (h : ∀ j ∈ (margins lines).find? (· < k), j < m) :
    lines.takeWhile (fun l => l.margin?.all (m ≤ ·)) = lines.takeWhile (fun l => l.margin?.all (k ≤ ·)) := by
  induction lines with
  | nil => rfl
  | cons l lines ih =>
      rw [List.takeWhile_cons, List.takeWhile_cons]
      cases hmargin : l.margin? with
      | none =>
          rw [margins, List.filterMap_cons_none hmargin] at h
          rw [Option.all_none, Option.all_none, if_pos rfl, if_pos rfl, ih h]
      | some j =>
          rw [margins, List.filterMap_cons_some hmargin] at h
          simp only [Option.all_some, decide_eq_true_eq]
          by_cases hjk : j < k
          · have hj : j < m := h j (List.find?_cons_of_pos (decide_eq_true hjk))
            rw [if_neg (by omega), if_neg (by omega)]
          · rw [List.find?_cons_of_neg (by simpa using hjk)] at h
            rw [if_pos (by omega), if_pos (by omega), ih h]

/-! ### Blocks around a remark -/

theorem block_eq_takeWhile_of_leads {m : Nat} {lines : List Line} (h : Leads m (margins lines)) :
    block lines = lines.takeWhile fun l => l.margin?.all (m ≤ ·) := by
  rw [block, takeBlock, ← List.head?_filterMap]
  cases hhead : (lines.filterMap margin?).head? with
  | none =>
      have hnone := List.filterMap_eq_nil_iff.1 (List.head?_eq_none_iff.1 hhead)
      symm
      rw [List.takeWhile_eq_self_iff]
      intro l hl
      rw [hnone l hl]
      rfl
  | some k =>
      obtain ⟨hmk, hends⟩ := h k hhead
      exact (takeWhile_eq_of_find? hmk hends).symm

theorem block_append_of_margin?_eq_none {above : List Line} (habove : ∀ l ∈ above, l.margin? = none)
    (lines : List Line) : block (above ++ lines) = above ++ block lines := by
  rw [block, block, takeBlock, takeBlock, List.findSome?_append, List.findSome?_eq_none_iff.2 habove,
    Option.none_or]
  cases lines.findSome? margin? with
  | none => rfl
  | some base =>
      dsimp only
      rw [List.takeWhile_append_of_pos]
      intro l hl
      rw [habove l hl]
      rfl

/-- A block stops where the first line that has a margin stands left of it, with nothing counted so far. -/
theorem counted_takeWhile_of_yields {m base : Nat} (hlt : m < base) {lines : List Line}
    (hlines : ∀ l ∈ lines, l.Plain) (hyields : Yields m (margins lines)) :
    counted (lines.takeWhile fun l => l.margin?.all (base ≤ ·)) = [] := by
  induction lines with
  | nil => rfl
  | cons l lines ih =>
      obtain ⟨hl, hlines⟩ := List.forall_mem_cons.1 hlines
      unfold Plain at hl
      rw [List.takeWhile_cons]
      cases hmargin : l.margin? with
      | none =>
          rw [margins, List.filterMap_cons_none hmargin] at hyields
          rw [hmargin] at hl
          rw [Option.all_none, if_pos rfl, counted_cons_of_not_counted hl, ih hlines hyields]
      | some k =>
          rw [margins, List.filterMap_cons_some hmargin] at hyields
          have hk : k ≤ m := hyields k rfl
          rw [Option.all_some, if_neg (by simpa using Nat.lt_of_le_of_lt hk hlt), counted_nil]

variable {c : Line} (hc : c.isCounted = false) {m : Nat} (hm : c.margin? = some m)

include hc hm

/-- A remark that sets the margin of a block. -/
theorem counted_block_of_leads {above below : List Line} (habove : ∀ l ∈ above, l.margin? = none)
    (hleads : Leads m (margins below)) :
    counted (block (above ++ c :: below)) = counted (block (above ++ below)) := by
  have hfront : block (c :: below) = c :: below.takeWhile fun l => l.margin?.all (m ≤ ·) := by
    rw [block, takeBlock, List.findSome?_cons, hm]
    dsimp only
    rw [List.takeWhile_cons_of_pos]
    rw [hm]
    exact decide_eq_true (Nat.le_refl m)
  rw [block_append_of_margin?_eq_none habove, block_append_of_margin?_eq_none habove, hfront,
    block_eq_takeWhile_of_leads hleads, counted_append, counted_append, counted_cons_of_not_counted hc]

/-- A remark inside a block whose margin is set by a line above it. -/
theorem counted_block_of_yields {above below : List Line} (habove : margins above ≠ [])
    (hbelow : ∀ l ∈ below, l.Plain) (hstops : (∃ k ∈ margins above, k ≤ m) ∨ Yields m (margins below)) :
    counted (block (above ++ c :: below)) = counted (block (above ++ below)) := by
  obtain ⟨base, hbase⟩ : ∃ base, above.findSome? margin? = some base := by
    rw [← List.head?_filterMap]
    exact Option.isSome_iff_exists.1 (List.isSome_head?.2 habove)
  have hblock (lines : List Line) :
      block (above ++ lines) = (above ++ lines).takeWhile fun l => l.margin?.all (base ≤ ·) := by
    rw [block, takeBlock, List.findSome?_append, hbase, Option.some_or]
  rw [hblock, hblock]
  by_cases hall : ∀ l ∈ above, l.margin?.all (base ≤ ·) = true
  · rw [List.takeWhile_append_of_pos hall, List.takeWhile_append_of_pos hall, counted_append, counted_append]
    congr 1
    rw [List.takeWhile_cons, hm, Option.all_some]
    split
    · rw [counted_cons_of_not_counted hc]
    · next hlt =>
        have hlt : m < base := by simpa using hlt
        symm
        rcases hstops with ⟨k, hk, hkm⟩ | hyields
        · obtain ⟨l, hl, hmargin⟩ := List.mem_filterMap.1 hk
          have hle := hall l hl
          rw [hmargin, Option.all_some, decide_eq_true_eq] at hle
          omega
        · exact counted_takeWhile_of_yields hlt hbelow hyields
  · have hshort : ¬ (above.takeWhile fun l => l.margin?.all (base ≤ ·)).length = above.length := by
      intro hlength
      apply hall
      rw [← (List.takeWhile_sublist _).eq_of_length hlength]
      exact List.all_eq_true.1 List.all_takeWhile
    rw [List.takeWhile_append, if_neg hshort, List.takeWhile_append, if_neg hshort]

omit hm in
theorem settled_of_counted_block {above below : List Line} (hplain : ∀ l ∈ above ++ below, l.Plain)
    (h : counted (block (above ++ c :: below)) = counted (block (above ++ below))) :
    Settled (above ++ c :: below) := by
  have hcounted : counted (above ++ c :: below) = counted (above ++ below) := by
    rw [counted_append, counted_cons_of_not_counted hc, ← counted_append]
  unfold Settled
  rw [hcounted, h]
  exact settled_of_plain hplain

theorem settled_of_leads {above below : List Line} (habove : ∀ l ∈ above, l.Blank)
    (hbelow : ∀ l ∈ below, l.Plain) (hleads : Leads m (margins below)) : Settled (above ++ c :: below) := by
  apply settled_of_counted_block hc
  · intro l hl
    rcases List.mem_append.1 hl with hl | hl
    · exact (habove l hl).plain
    · exact hbelow l hl
  · exact counted_block_of_leads hc hm (fun l hl => (habove l hl).margin?) hleads

/-- What is left of a script from a line above the remark on, up to any line. -/
theorem settled_of_isPrefix {above below : List Line} {prev : Line} (hprev : prev.isCounted = true)
    (habove : ∀ l ∈ above ++ [prev], l.Plain) (hbelow : ∀ l ∈ below, l.Plain)
    (hstops : (∃ k ∈ prev.margin?, k ≤ m) ∨ Yields m (margins below)) {rest : List Line}
    (hrest : rest <+: above ++ [prev] ++ c :: below) : Settled rest := by
  rcases List.prefix_or_prefix_of_prefix hrest (List.prefix_append (above ++ [prev]) (c :: below)) with
    hshort | ⟨rest', rfl⟩
  · exact settled_of_plain fun l hl => habove l (hshort.subset hl)
  · rcases List.prefix_cons_iff.1 ((List.prefix_append_right_inj _).1 hrest) with rfl | ⟨below', rfl, hbelow'⟩
    · rw [List.append_nil]
      exact settled_of_plain habove
    · have hmargins : margins below' <+: margins below := hbelow'.filterMap margin?
      have hplain : ∀ l ∈ below', l.Plain := fun l hl => hbelow l (hbelow'.subset hl)
      have hset : ∃ k ∈ margins (above ++ [prev]), prev.margin? = some k := by
        have hsome : prev.isCounted = prev.margin?.isSome := habove prev (by simp)
        obtain ⟨k, hk⟩ := Option.isSome_iff_exists.1 (hsome.symm.trans hprev)
        exact ⟨k, List.mem_filterMap.2 ⟨prev, by simp, hk⟩, hk⟩
      obtain ⟨k, hk, hmargin⟩ := hset
      apply settled_of_counted_block hc
      · exact List.forall_mem_append.2 ⟨habove, hplain⟩
      · apply counted_block_of_yields hc hm (List.ne_nil_of_mem hk) hplain
        rcases hstops with ⟨k', hk', hle⟩ | hyields
        · rw [hmargin] at hk'
          cases hk'
          exact .inl ⟨k, hk, hle⟩
        · exact .inr (hyields.of_isPrefix hmargins)

/-- All blocks around a remark are the same without it, if it stands below a line that opens no block and
yields to the next, or below one that opens a block, not left of it, and leads that block. -/
theorem tame_remark {above below : List Line} {prev : Line} (hprev : prev.isCounted = true)
    (habove : ∀ l ∈ above ++ [prev], l.Plain) (hbelow : ∀ l ∈ below, l.Plain)
    (hstops : (∃ k ∈ prev.margin?, k ≤ m) ∨ Yields m (margins below))
    (hleads : prev.statement.opens = true → Leads m (margins below)) :
    Tame (above ++ [prev] ++ c :: below) := by
  have hskip : c.statement = .skip := by simpa [isCounted] using hc
  induction above with
  | nil =>
      refine tame_cons (fun hopens rest hrest => ?_) (tame_cons (fun hopens => ?_) (tame_of_plain hbelow))
      · rcases List.prefix_cons_iff.1 hrest with rfl | ⟨below', rfl, hbelow'⟩
        · exact settled_of_plain (List.forall_mem_nil _)
        · have hmargins : margins below' <+: margins below := hbelow'.filterMap margin?
          exact settled_of_leads hc hm (List.forall_mem_nil _) (fun l hl => hbelow l (hbelow'.subset hl))
            ((hleads hopens).of_isPrefix hmargins)
      · rw [hskip] at hopens
        cases hopens
  | cons l above ih =>
      obtain ⟨-, habove⟩ := List.forall_mem_cons.1 habove
      exact tame_cons (fun _ rest hrest => settled_of_isPrefix hc hm hprev habove hbelow hstops hrest) (ih habove)

end Line

end GridRobot
