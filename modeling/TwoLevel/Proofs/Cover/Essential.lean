import TwoLevel.Proofs.Cover.Residue

/-
  This file settles the first stage of the selection. It may
  be read as an extraction: while some live column has a sole
  satisfier, that line is selected. Every extraction that has
  run to its end takes the same rows, whatever the order. They
  are the sole satisfiers of a column before the first step.

  Key definitions include:
    * `Residue.IsEssential`
    * `Extraction`
    * `Residue.Exhausted`
    * `Residue.rescan`

  Main theorems:
    * `leaves_of_extraction`
    * `mem_iff_isEssential_of_extraction`
    * `extraction_rescan`
    * `exhausted_rescan`
    * `takeEssential_eq_rescan`
-/

namespace TwoLevel

------------------------------------------------------------
-- Extractions
------------------------------------------------------------

/- The row is that of the sole satisfier of a live column. -/
def Residue.IsEssential
    (residue : Residue)
    (row : Row) : Prop :=
  ∃ column, residue.live.contains column = true ∧
    ∃ line, soleSatisfier? residue.candidates column =
        some line ∧
      line.row = row

/-
  Select the sole satisfier of some live column, any number of
  times. No order of the columns is laid down.
-/
inductive Extraction :
    Residue → List Row → Residue → Prop where
  | done (residue : Residue) :
      Extraction residue [] residue
  | take
      {residue last : Residue}
      {column : Nat}
      {line : Chart.Line}
      {rows : List Row}
      (hLive : residue.live.contains column = true)
      (hSole :
        soleSatisfier? residue.candidates column = some line)
      (hRest : Extraction (residue.take line) rows last) :
      Extraction residue (line.row :: rows) last

/- No live column has a sole satisfier. -/
def Residue.Exhausted
    (residue : Residue) : Prop :=
  ∀ column, residue.live.contains column = true →
    soleSatisfier? residue.candidates column = none

section Invariant

variable {initial residue last : Residue}
variable {taken rows : List Row}

theorem leaves_of_extraction
    (hLeaves : initial.Leaves taken residue)
    (hDistinct : initial.Distinct)
    (hRun : Extraction residue rows last) :
    initial.Leaves (taken ++ rows) last := by
  induction hRun generalizing taken with
  | done residue =>
      rw [List.append_nil]
      exact hLeaves
  | take hLive hSole hRest ih =>
      have hMem :=
        (mem_of_soleSatisfier?_eq_some hSole).1
      have hNext :=
        ih (Residue.leaves_take hLeaves hDistinct hMem)
      rw [List.append_assoc] at hNext
      exact hNext

/-
  Nothing looks unique that was not so at first: a column that
  is still live has lost none of its satisfiers.
-/
theorem isEssential_of_extraction
    (hLeaves : initial.Leaves taken residue)
    (hDistinct : initial.Distinct)
    (hRun : Extraction residue rows last) :
    ∀ row ∈ rows, initial.IsEssential row := by
  induction hRun generalizing taken with
  | done residue => simp
  | @take residue last column line rows hLive hSole hRest
      ih =>
      have hMem :=
        (mem_of_soleSatisfier?_eq_some hSole).1
      refine List.forall_mem_cons.2 ⟨?_, ?_⟩
      · rw [Residue.soleSatisfier?_of_leaves hLeaves hLive]
          at hSole
        exact ⟨column, hLeaves.contains_of_live hLive, line,
          hSole, rfl⟩
      · exact
          ih (Residue.leaves_take hLeaves hDistinct hMem)

/-
  Nothing that was unique is lost: if its column is dead, then
  a selected line has the column, and it is that one.
-/
theorem mem_of_isEssential
    (hLeaves : initial.Leaves taken last)
    (hDistinct : initial.Distinct)
    (hExhausted : last.Exhausted)
    {row : Row}
    (hRow : initial.IsEssential row) :
    row ∈ taken := by
  rcases hRow with ⟨column, hLive, line, hSole, rfl⟩
  by_cases hLast : last.live.contains column = true
  · have hNone := hExhausted column hLast
    rw [Residue.soleSatisfier?_of_leaves hLeaves hLast,
      hSole] at hNone
    cases hNone
  · rcases hLeaves.exists_line_of_dead hLive hLast with
      ⟨other, hOther, hTaken, hContains⟩
    have hOnly :=
      ((soleSatisfier?_eq_some_iff hDistinct.nodup).1
        hSole).2.2
    rw [← hOnly other hOther hContains]
    exact hTaken

/- Every order of extraction ends with the same rows. -/
theorem mem_iff_isEssential_of_extraction
    (hDistinct : initial.Distinct)
    (hRun : Extraction initial rows last)
    (hExhausted : last.Exhausted)
    {row : Row} :
    row ∈ rows ↔ initial.IsEssential row := by
  have hStart := Residue.leaves_refl initial
  constructor
  · exact isEssential_of_extraction hStart hDistinct hRun row
  · exact mem_of_isEssential
      (leaves_of_extraction hStart hDistinct hRun)
      hDistinct hExhausted

end Invariant

------------------------------------------------------------
-- Searching Anew after Each Selection
------------------------------------------------------------

namespace Residue

/- The sole satisfier of the first live column to have one. -/
def essential?
    (residue : Residue) : Option Chart.Line :=
  residue.live.toList.findSome?
    (soleSatisfier? residue.candidates)

theorem mem_of_essential?_eq_some
    {residue : Residue}
    {line : Chart.Line}
    (h : residue.essential? = some line) :
    line ∈ residue.candidates := by
  rcases List.exists_of_findSome?_eq_some h with
    ⟨column, _, hSole⟩
  exact (mem_of_soleSatisfier?_eq_some hSole).1

/-
  Look for a live column with a sole satisfier, from the first
  column on, until there is none.
-/
def rescan
    (residue : Residue) : List Row × Residue :=
  match hLine : residue.essential? with
  | none => ([], residue)
  | some line =>
      have := length_take_lt (mem_of_essential?_eq_some hLine)
      let (rows, last) := (residue.take line).rescan
      (line.row :: rows, last)
  termination_by residue.candidates.length

theorem rescan_of_none
    {residue : Residue}
    (h : residue.essential? = none) :
    residue.rescan = ([], residue) := by
  rw [rescan]
  split
  · rfl
  · rename_i line hLine
    rw [h] at hLine
    cases hLine

theorem rescan_of_some
    {residue : Residue}
    {line : Chart.Line}
    (h : residue.essential? = some line) :
    residue.rescan =
      (line.row :: (residue.take line).rescan.1,
        (residue.take line).rescan.2) := by
  rw [rescan]
  split
  · rename_i hNone
    rw [h] at hNone
    cases hNone
  · rename_i other hOther
    rw [h] at hOther
    cases hOther
    rfl

theorem extraction_rescan
    (residue : Residue) :
    Extraction residue residue.rescan.1 residue.rescan.2 := by
  induction residue using rescan.induct with
  | case1 residue hNone =>
      rw [rescan_of_none hNone]
      exact .done residue
  | case2 residue line hLine _ _ _ _ ih =>
      rw [rescan_of_some hLine]
      rcases List.exists_of_findSome?_eq_some hLine with
        ⟨column, hColumn, hSole⟩
      exact .take (BitSet.mem_toList_iff.1 hColumn) hSole ih

theorem exhausted_rescan
    (residue : Residue) :
    residue.rescan.2.Exhausted := by
  induction residue using rescan.induct with
  | case1 residue hNone =>
      rw [rescan_of_none hNone]
      intro column hLive
      exact List.findSome?_eq_none_iff.1 hNone column
        (BitSet.mem_toList_iff.2 hLive)
  | case2 residue line hLine _ _ _ _ ih =>
      rw [rescan_of_some hLine]
      exact ih

end Residue

------------------------------------------------------------
-- One Pass over the Columns
------------------------------------------------------------

/-
  Where a pass over the columns stands: the live columns that
  it has gone by have no sole satisfier.
-/
private structure Passed
    (passed columns : List Nat)
    (residue : Residue) : Prop where
  toList_eq :
    residue.live.toList =
      passed ++ columns.filter residue.live.contains
  eq_none :
    ∀ column ∈ passed,
      soleSatisfier? residue.candidates column = none

section Pass

variable {passed columns : List Nat}
variable {residue : Residue}

private theorem Passed.essential?_eq
    (h : Passed passed columns residue) :
    residue.essential? =
      (columns.filter residue.live.contains).findSome?
        (soleSatisfier? residue.candidates) := by
  rw [Residue.essential?, h.toList_eq,
    List.findSome?_append,
    List.findSome?_eq_none_iff.2 h.eq_none, Option.none_or]

private theorem Passed.skip
    {column : Nat}
    (h : Passed passed (column :: columns) residue)
    (hLive : residue.live.contains column = true)
    (hNone :
      soleSatisfier? residue.candidates column = none) :
    Passed (passed ++ [column]) columns residue where
  toList_eq := by
    rw [h.toList_eq, List.filter_cons_of_pos hLive,
      List.append_assoc, List.singleton_append]
  eq_none := by
    intro other hOther
    rcases List.mem_append.1 hOther with hOther | hOther
    · exact h.eq_none other hOther
    · rw [List.mem_singleton.1 hOther]
      exact hNone

private theorem live_take_and_live
    (residue : Residue)
    (line : Chart.Line)
    (column : Nat) :
    ((residue.take line).live.contains column &&
        residue.live.contains column) =
      (residue.take line).live.contains column := by
  rw [Residue.take, BitSet.contains_diff]
  cases residue.live.contains column with
  | false => rfl
  | true => exact Bool.and_true _

private theorem toList_take
    (residue : Residue)
    (line : Chart.Line) :
    (residue.take line).live.toList =
      residue.live.toList.filter
        (residue.take line).live.contains := by
  have hWidth :
      (residue.take line).live.width = residue.live.width :=
    BitSet.width_diff residue.live line.columns
  rw [BitSet.toList, BitSet.toList, List.filter_filter,
    hWidth]
  simp only [live_take_and_live]

/-
  The columns gone by have kept their satisfiers, so a search
  from the first column on would go by them again.
-/
private theorem Passed.take
    {column : Nat}
    {line : Chart.Line}
    (h : Passed passed (column :: columns) residue)
    (hDistinct : residue.Distinct)
    (hLine : line ∈ residue.candidates)
    (hContains : line.columns.contains column = true) :
    Passed
      (passed.filter (residue.take line).live.contains)
      columns (residue.take line) where
  toList_eq := by
    have hDead :
        (residue.take line).live.contains column ≠ true := by
      intro hLive
      rw [(Residue.contains_live_take_iff.1 hLive).2]
        at hContains
      cases hContains
    rw [toList_take, h.toList_eq, List.filter_append,
      List.filter_filter]
    simp only [live_take_and_live]
    rw [List.filter_cons_of_neg hDead]
  eq_none := by
    intro other hOther
    rcases List.mem_filter.1 hOther with ⟨hMem, hLive⟩
    have hLeaves :=
      Residue.leaves_take (Residue.leaves_refl residue)
        hDistinct hLine
    rw [Residue.soleSatisfier?_of_leaves hLeaves hLive]
    exact h.eq_none other hMem

private theorem takeEssential_eq_rescan_of_passed
    (hDistinct : residue.Distinct)
    (h : Passed passed columns residue) :
    takeEssential columns residue = residue.rescan := by
  induction columns generalizing passed residue with
  | nil => exact (Residue.rescan_of_none h.essential?_eq).symm
  | cons column columns ih =>
      have hEssential := h.essential?_eq
      unfold takeEssential
      split
      · rename_i hLive
        rw [List.filter_cons_of_pos hLive,
          List.findSome?_cons] at hEssential
        split
        · rename_i line hSole
          rw [hSole] at hEssential
          rcases mem_of_soleSatisfier?_eq_some hSole with
            ⟨hLine, hContains⟩
          have hLeaves :=
            Residue.leaves_take (Residue.leaves_refl residue)
              hDistinct hLine
          rw [Residue.rescan_of_some hEssential,
            ih (hLeaves.distinct hDistinct)
              (h.take hDistinct hLine hContains)]
        · rename_i hNone
          exact ih hDistinct (h.skip hLive hNone)
      · rename_i hDead
        refine ih hDistinct ⟨?_, h.eq_none⟩
        rw [h.toList_eq, List.filter_cons_of_neg hDead]

end Pass

/-
  One pass over the live columns selects what searching them
  anew after each selection does, and in the same order.
-/
theorem takeEssential_eq_rescan
    {residue : Residue}
    (hDistinct : residue.Distinct) :
    takeEssential residue.live.toList residue =
      residue.rescan := by
  have hStart : Passed [] residue.live.toList residue := by
    refine ⟨?_, by simp⟩
    rw [List.nil_append, List.filter_eq_self.2]
    intro column hColumn
    exact BitSet.mem_toList_iff.1 hColumn
  exact takeEssential_eq_rescan_of_passed hDistinct hStart

end TwoLevel
