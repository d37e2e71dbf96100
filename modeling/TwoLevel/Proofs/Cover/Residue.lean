import Mathlib.Data.List.Nodup
import TwoLevel.Cover
import TwoLevel.Proofs.Chart.Columns

/-
  This file gives the invariant of both stages of the
  selection. Whatever has been selected, a column is live when
  no selected line has it, and a line that has a live column
  is still a candidate. So a live column has the same
  satisfiers among the candidates as among all lines.

  Key definitions include:
    * `Residue.Distinct`
    * `Residue.Leaves`
    * `Residue.Coverable`

  Main theorems:
    * `gain_pos_iff`
    * `mem_of_soleSatisfier?_eq_some`
    * `soleSatisfier?_eq_some_iff`
    * `leaves_take`
    * `leaves_prune`
    * `filter_contains_of_leaves`
    * `mem_candidates_of_contains`
    * `coverable_of_leaves`
-/

namespace TwoLevel

------------------------------------------------------------
-- Gains and Sole Satisfiers
------------------------------------------------------------

/- A line gains when it has a live column. -/
theorem gain_pos_iff
    {live : BitSet}
    {line : Chart.Line} :
    0 < gain live line ↔
      ∃ column, live.contains column = true ∧
        line.columns.contains column = true := by
  rw [gain, BitSet.interSize_eq_length, List.length_pos_iff]
  constructor
  · intro h
    rcases List.exists_mem_of_ne_nil _ h with ⟨column, hMem⟩
    rw [List.mem_filter, BitSet.mem_toList_iff] at hMem
    exact ⟨column, hMem.2, hMem.1⟩
  · intro hGiven
    rcases hGiven with ⟨column, hLive, hColumns⟩
    apply List.ne_nil_of_mem (a := column)
    rw [List.mem_filter, BitSet.mem_toList_iff]
    exact ⟨hColumns, hLive⟩

private theorem eq_singleton_iff
    {α : Type}
    {xs : List α}
    (hNodup : xs.Nodup)
    {x : α} :
    xs = [x] ↔ x ∈ xs ∧ ∀ y ∈ xs, y = x := by
  constructor
  · intro hEq
    subst hEq
    simp
  · intro hGiven
    rcases hGiven with ⟨hMem, hAll⟩
    cases xs with
    | nil => cases hMem
    | cons y ys =>
        have hy := hAll y List.mem_cons_self
        subst hy
        have hys : ys = [] := by
          apply List.eq_nil_iff_forall_not_mem.2
          intro z hz
          have hzy := hAll z (List.mem_cons_of_mem y hz)
          rw [hzy] at hz
          exact (List.nodup_cons.1 hNodup).1 hz
        rw [hys]

theorem soleSatisfier?_eq_some_iff_filter
    {candidates : List Chart.Line}
    {column : Nat}
    {line : Chart.Line} :
    soleSatisfier? candidates column = some line ↔
      candidates.filter
          (fun line => line.columns.contains column) =
        [line] := by
  unfold soleSatisfier?
  split
  · rename_i other hOther
    rw [hOther, Option.some.injEq, List.cons.injEq]
    simp
  · rename_i hOther
    constructor
    · intro h
      cases h
    · intro h
      exact absurd h (hOther line)

theorem mem_of_soleSatisfier?_eq_some
    {candidates : List Chart.Line}
    {column : Nat}
    {line : Chart.Line}
    (h : soleSatisfier? candidates column = some line) :
    line ∈ candidates ∧
      line.columns.contains column = true := by
  have hMem := List.mem_singleton_self line
  rw [← soleSatisfier?_eq_some_iff_filter.1 h] at hMem
  exact List.mem_filter.1 hMem

theorem soleSatisfier?_eq_some_iff
    {candidates : List Chart.Line}
    (hNodup : candidates.Nodup)
    {column : Nat}
    {line : Chart.Line} :
    soleSatisfier? candidates column = some line ↔
      line ∈ candidates ∧
        line.columns.contains column = true ∧
        ∀ other ∈ candidates,
          other.columns.contains column = true →
            other = line := by
  rw [soleSatisfier?_eq_some_iff_filter,
    eq_singleton_iff (hNodup.filter _)]
  simp only [List.mem_filter, and_imp, and_assoc]

namespace Residue

------------------------------------------------------------
-- What a Selection Leaves
------------------------------------------------------------

/- No two candidates have the same row. -/
def Distinct
    (residue : Residue) : Prop :=
  (residue.candidates.map Chart.Line.row).Nodup

theorem Distinct.nodup
    {residue : Residue}
    (h : residue.Distinct) :
    residue.candidates.Nodup :=
  List.Nodup.of_map _ h

theorem Distinct.eq_of_row_eq
    {residue : Residue}
    (h : residue.Distinct)
    {a b : Chart.Line}
    (ha : a ∈ residue.candidates)
    (hb : b ∈ residue.candidates)
    (hRow : a.row = b.row) :
    a = b :=
  List.inj_on_of_nodup_map h ha hb hRow

/-
  The residue after the given rows have been selected. Only
  candidates without a live column may have been dropped.
-/
structure Leaves
    (initial : Residue)
    (taken : List Row)
    (residue : Residue) : Prop where
  exists_line :
    ∀ row ∈ taken, ∃ line ∈ initial.candidates,
      line.row = row
  live_iff :
    ∀ column, residue.live.contains column = true ↔
      initial.live.contains column = true ∧
        ∀ line ∈ initial.candidates, line.row ∈ taken →
          line.columns.contains column = false
  candidates_eq :
    ∃ keep : Chart.Line → Bool,
      residue.candidates =
          initial.candidates.filter keep ∧
        ∀ line ∈ initial.candidates, ∀ column,
          residue.live.contains column = true →
            line.columns.contains column = true →
              keep line = true

theorem leaves_refl
    (initial : Residue) :
    initial.Leaves [] initial where
  exists_line := by simp
  live_iff := by simp
  candidates_eq := by
    refine ⟨fun _ => true, by simp, ?_⟩
    intros
    rfl

section Invariant

variable {initial residue : Residue}
variable {taken : List Row}

theorem Leaves.mem_candidates
    (h : initial.Leaves taken residue)
    {line : Chart.Line}
    (hLine : line ∈ residue.candidates) :
    line ∈ initial.candidates := by
  rcases h.candidates_eq with ⟨keep, hKeep, _⟩
  rw [hKeep] at hLine
  exact (List.mem_filter.1 hLine).1

theorem Leaves.distinct
    (h : initial.Leaves taken residue)
    (hDistinct : initial.Distinct) :
    residue.Distinct := by
  rcases h.candidates_eq with ⟨keep, hKeep, _⟩
  have hSublist :
      residue.candidates.Sublist initial.candidates := by
    rw [hKeep]
    exact List.filter_sublist
  exact List.Nodup.sublist (hSublist.map Chart.Line.row)
    hDistinct

theorem Leaves.contains_of_live
    (h : initial.Leaves taken residue)
    {column : Nat}
    (hLive : residue.live.contains column = true) :
    initial.live.contains column = true :=
  ((h.live_iff column).1 hLive).1

/- A column that has died is in a selected line. -/
theorem Leaves.exists_line_of_dead
    (h : initial.Leaves taken residue)
    {column : Nat}
    (hLive : initial.live.contains column = true)
    (hDead : residue.live.contains column ≠ true) :
    ∃ line ∈ initial.candidates, line.row ∈ taken ∧
      line.columns.contains column = true := by
  rw [ne_eq, h.live_iff] at hDead
  push Not at hDead
  rcases hDead hLive with ⟨line, hLine, hTaken, hContains⟩
  exact ⟨line, hLine, hTaken,
    eq_true_of_ne_false hContains⟩

theorem contains_live_take_iff
    {line : Chart.Line}
    {column : Nat} :
    (residue.take line).live.contains column = true ↔
      residue.live.contains column = true ∧
        line.columns.contains column = false := by
  rw [take, BitSet.contains_diff, Bool.and_eq_true,
    Bool.not_eq_true']

private theorem Leaves.live_take_iff
    (h : initial.Leaves taken residue)
    (hDistinct : initial.Distinct)
    {line : Chart.Line}
    (hLine : line ∈ initial.candidates)
    (column : Nat) :
    (residue.take line).live.contains column = true ↔
      initial.live.contains column = true ∧
        ∀ other ∈ initial.candidates,
          other.row ∈ taken ++ [line.row] →
            other.columns.contains column = false := by
  rw [contains_live_take_iff, h.live_iff]
  constructor
  · intro hGiven
    rcases hGiven with ⟨⟨hInitial, hTaken⟩, hDead⟩
    refine ⟨hInitial, fun other hOther hRow => ?_⟩
    rcases List.mem_append.1 hRow with hRow | hRow
    · exact hTaken other hOther hRow
    · have hEq :=
        hDistinct.eq_of_row_eq hOther hLine
          (List.mem_singleton.1 hRow)
      rw [hEq]
      exact hDead
  · intro hGiven
    rcases hGiven with ⟨hInitial, hTaken⟩
    refine ⟨⟨hInitial, fun other hOther hRow => ?_⟩, ?_⟩
    · exact hTaken other hOther
        (List.mem_append_left _ hRow)
    · exact hTaken line hLine
        (List.mem_append_right _
          (List.mem_singleton_self line.row))

/- Selecting one more line keeps the invariant. -/
theorem leaves_take
    (h : initial.Leaves taken residue)
    (hDistinct : initial.Distinct)
    {line : Chart.Line}
    (hLine : line ∈ residue.candidates) :
    initial.Leaves (taken ++ [line.row])
      (residue.take line) := by
  have hMem := h.mem_candidates hLine
  refine ⟨?_, h.live_take_iff hDistinct hMem, ?_⟩
  · intro row hRow
    rcases List.mem_append.1 hRow with hRow | hRow
    · exact h.exists_line row hRow
    · exact ⟨line, hMem, (List.mem_singleton.1 hRow).symm⟩
  · rcases h.candidates_eq with ⟨keep, hKeep, hAll⟩
    refine ⟨fun other =>
      (other.row != line.row) && keep other, ?_, ?_⟩
    · rw [take, hKeep, List.filter_filter]
    · intro other hOther column hColumn hContains
      rcases contains_live_take_iff.1 hColumn with
        ⟨hBefore, hDead⟩
      rw [Bool.and_eq_true, bne_iff_ne]
      refine ⟨?_, hAll other hOther column hBefore
        hContains⟩
      intro hRow
      have hEq := hDistinct.eq_of_row_eq hOther hMem hRow
      rw [hEq, hDead] at hContains
      cases hContains

/- Pruning drops no line that has a live column. -/
theorem leaves_prune
    (h : initial.Leaves taken residue) :
    initial.Leaves taken residue.prune := by
  refine ⟨h.exists_line, h.live_iff, ?_⟩
  rcases h.candidates_eq with ⟨keep, hKeep, hAll⟩
  refine ⟨fun line =>
    decide (0 < gain residue.live line) && keep line, ?_, ?_⟩
  · rw [prune, hKeep, List.filter_filter]
  · intro line hLine column hColumn hContains
    rw [Bool.and_eq_true, decide_eq_true_eq]
    exact ⟨gain_pos_iff.2 ⟨column, hColumn, hContains⟩,
      hAll line hLine column hColumn hContains⟩

/- A live column has the satisfiers that it had at first. -/
theorem filter_contains_of_leaves
    (h : initial.Leaves taken residue)
    {column : Nat}
    (hLive : residue.live.contains column = true) :
    residue.candidates.filter
        (fun line => line.columns.contains column) =
      initial.candidates.filter
        (fun line => line.columns.contains column) := by
  rcases h.candidates_eq with ⟨keep, hKeep, hAll⟩
  rw [hKeep, List.filter_filter]
  apply List.filter_congr
  intro line hLine
  cases hContains : line.columns.contains column with
  | false => rfl
  | true =>
      exact hAll line hLine column hLive hContains

/- A line with a live column has not been dropped. -/
theorem Leaves.mem_candidates_of_contains
    (h : initial.Leaves taken residue)
    {line : Chart.Line}
    (hLine : line ∈ initial.candidates)
    {column : Nat}
    (hLive : residue.live.contains column = true)
    (hContains : line.columns.contains column = true) :
    line ∈ residue.candidates := by
  rcases h.candidates_eq with ⟨keep, hKeep, hAll⟩
  rw [hKeep]
  exact List.mem_filter.2
    ⟨hLine, hAll line hLine column hLive hContains⟩

theorem soleSatisfier?_of_leaves
    (h : initial.Leaves taken residue)
    {column : Nat}
    (hLive : residue.live.contains column = true) :
    soleSatisfier? residue.candidates column =
      soleSatisfier? initial.candidates column := by
  unfold soleSatisfier?
  rw [filter_contains_of_leaves h hLive]

------------------------------------------------------------
-- Coverable Residues
------------------------------------------------------------

/- Every live column has a candidate. -/
def Coverable
    (residue : Residue) : Prop :=
  ∀ column, residue.live.contains column = true →
    ∃ line ∈ residue.candidates,
      line.columns.contains column = true

/- No selection takes the last satisfier of a live column. -/
theorem coverable_of_leaves
    (h : initial.Leaves taken residue)
    (hCoverable : initial.Coverable) :
    residue.Coverable := by
  intro column hLive
  rcases hCoverable column (h.contains_of_live hLive) with
    ⟨line, hLine, hContains⟩
  exact ⟨line,
    h.mem_candidates_of_contains hLine hLive hContains,
    hContains⟩

end Invariant

end Residue

end TwoLevel
