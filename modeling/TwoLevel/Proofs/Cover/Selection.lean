import TwoLevel.Proofs.Cover.Essential
import TwoLevel.Proofs.Cover.Greedy

/-
  This file puts the stages of the selection together. A chart
  of implicants and a table of its arity always have live
  columns to start from, and a selection that is made has run
  both stages to their end. Its rows are implicants that hold
  wherever the table does.

  Key definitions include:
    * `Chart.initial`
    * `Chart.IsRun`

  Main theorems:
    * `select_of_arity_eq`
    * `exists_takeGreedy_eq_ok`
    * `exists_isRun`
    * `leaves_between`
    * `covers_of_cover_eq_ok`
-/

namespace TwoLevel

namespace Chart

------------------------------------------------------------
-- The Start of a Selection
------------------------------------------------------------

/- Before a selection every line is a candidate. -/
def initial
    (chart : Chart)
    (live : BitSet) : Residue where
  live
  candidates := chart.lines

section Selection

variable {primes : RowSet}
variable {chart : Chart}
variable {table : Table}
variable {live : BitSet}

theorem IsChartOf.distinct_initial
    (h : chart.IsChartOf primes)
    (live : BitSet) :
    (chart.initial live).Distinct :=
  h.nodup_rows

theorem coverable_initial
    (hCovered :
      live.toList.find? (fun i => !chart.covers i) = none) :
    (chart.initial live).Coverable := by
  intro column hLive
  have hCovers :=
    List.find?_eq_none.1 hCovered column
      (BitSet.mem_toList_iff.2 hLive)
  rw [Bool.not_eq_true', Bool.not_eq_false, covers,
    List.any_eq_true] at hCovers
  exact hCovers

/- The columns of a table's minterms are in range. -/
theorem IsChartOf.exists_liveColumns_eq_ok
    (h : chart.IsChartOf primes)
    (hArity : chart.arity = table.arity) :
    ∃ live,
      chart.liveColumns table.mintermSet.toList = .ok live ∧
        ∀ column, live.contains column = true ↔
          column ∈ table.mintermSet := by
  have hLt :
      ∀ i ∈ table.mintermSet.toList, i < chart.width := by
    intro i hi
    rw [OrderedSet.mem_toList_iff,
      Table.mem_mintermSet_iff_holds] at hi
    rw [h.width_eq, hArity]
    exact hi.1
  rcases BitSet.ofList_of_forall_lt hLt with
    ⟨live, hLive, _, hMem⟩
  refine ⟨live, ?_, fun column => ?_⟩
  · rw [liveColumns, hLive]
    rfl
  · rw [hMem, List.contains_iff_mem,
      OrderedSet.mem_toList_iff]

theorem IsChartOf.takeEssential_initial
    (h : chart.IsChartOf primes)
    (live : BitSet) :
    takeEssential live.toList (chart.initial live) =
      (chart.initial live).rescan := by
  have hSame :=
    takeEssential_eq_rescan (h.distinct_initial live)
  have hLive : (chart.initial live).live = live := rfl
  rw [hLive] at hSame
  exact hSame

/- The greedy stage ends, whatever the first stage leaves. -/
theorem IsChartOf.exists_takeGreedy_eq_ok
    (h : chart.IsChartOf primes)
    (hCovered :
      live.toList.find? (fun i => !chart.covers i) = none) :
    ∃ picks,
      takeGreedy chart.arity
          (takeEssential live.toList
            (chart.initial live)).2 =
        .ok picks := by
  have hDistinct := h.distinct_initial live
  have hLeaves :=
    leaves_of_extraction
      (Residue.leaves_refl (chart.initial live)) hDistinct
      (Residue.extraction_rescan (chart.initial live))
  rw [h.takeEssential_initial]
  exact TwoLevel.exists_takeGreedy_eq_ok chart.arity hLeaves
    hDistinct (coverable_initial hCovered)

theorem IsChartOf.width_ne_zero
    (h : chart.IsChartOf primes) :
    chart.width ≠ 0 := by
  rw [h.width_eq]
  exact Nat.ne_of_gt (assignmentCount_pos chart.arity)

theorem IsChartOf.select_of_arity_ne
    (h : chart.IsChartOf primes)
    (hArity : chart.arity ≠ table.arity) :
    chart.select table =
      .error (.malformed
        (.chartMismatch chart.arity table.arity)) := by
  have hDegenerate :
      ¬ (chart.arity = 0 ∨ chart.width = 0) :=
    not_or.2 ⟨Nat.ne_of_gt h.arity_pos, h.width_ne_zero⟩
  rw [select, if_neg hDegenerate, if_pos (Ne.symm hArity)]

/- The selection once its live columns are known. -/
theorem IsChartOf.select_of_arity_eq
    (h : chart.IsChartOf primes)
    (hArity : chart.arity = table.arity)
    (hLive :
      chart.liveColumns table.mintermSet.toList =
        .ok live) :
    chart.select table =
      match live.toList.find?
          (fun i => !chart.covers i) with
      | some column =>
          .error (.malformed
            (.uncoverable
              (chart.assignment column).toText))
      | none =>
          (takeGreedy chart.arity
            (takeEssential live.toList
              (chart.initial live)).2).map
            (fun greedy =>
              { relevant := live.size
                essential :=
                  (takeEssential live.toList
                    (chart.initial live)).1
                greedy }) := by
  have hDegenerate :
      ¬ (chart.arity = 0 ∨ chart.width = 0) :=
    not_or.2 ⟨Nat.ne_of_gt h.arity_pos, h.width_ne_zero⟩
  have hMinterms : table.minterms = .ok table.mintermSet :=
    Table.minterms_eq_ok (hArity ▸ h.arity_le)
  rw [select, if_neg hDegenerate,
    if_neg (not_not.2 hArity.symm), hMinterms]
  show (chart.liveColumns table.mintermSet.toList >>= _) = _
  rw [hLive]
  show (match live.toList.find?
          (fun i => !chart.covers i) with
      | some column => _
      | none => _) = _
  split
  · rfl
  · show (takeGreedy chart.arity
            (takeEssential live.toList
              (chart.initial live)).2 >>= _) = _
    cases takeGreedy chart.arity
        (takeEssential live.toList
          (chart.initial live)).2 with
    | error failure => rfl
    | ok greedy => rfl

------------------------------------------------------------
-- Runs of Both Stages
------------------------------------------------------------

/-
  What a selection has gone through: an extraction to its end,
  from the minterms of the table on, and then a greedy run.
-/
structure IsRun
    (chart : Chart)
    (table : Table)
    (selection : Selection)
    (live : BitSet)
    (between : Residue) : Prop where
  arity_eq : chart.arity = table.arity
  live_iff :
    ∀ column, live.contains column = true ↔
      column ∈ table.mintermSet
  extraction :
    Extraction (chart.initial live) selection.essential
      between
  exhausted : between.Exhausted
  greedyRun : GreedyRun between selection.greedy

theorem IsChartOf.exists_isRun
    (h : chart.IsChartOf primes)
    {selection : Selection}
    (hSelect : chart.select table = .ok selection) :
    ∃ live between,
      chart.IsRun table selection live between := by
  by_cases hArity : chart.arity = table.arity
  · rcases h.exists_liveColumns_eq_ok hArity with
      ⟨live, hLive, hMem⟩
    rw [h.select_of_arity_eq hArity hLive] at hSelect
    split at hSelect
    · cases hSelect
    · rcases map_eq_ok_iff.1 hSelect with
        ⟨greedy, hGreedy, rfl⟩
      rw [h.takeEssential_initial] at hGreedy
      refine ⟨live, (chart.initial live).rescan.2,
        hArity, hMem, ?_, ?_, ?_⟩
      · dsimp only
        rw [h.takeEssential_initial]
        exact Residue.extraction_rescan (chart.initial live)
      · exact Residue.exhausted_rescan (chart.initial live)
      · exact takeGreedy_eq_ok_iff.1 hGreedy
  · rw [h.select_of_arity_ne hArity] at hSelect
    cases hSelect

/- The second stage starts from what the first one leaves. -/
theorem IsRun.leaves_between
    {selection : Selection}
    {between : Residue}
    (hRun : chart.IsRun table selection live between)
    (h : chart.IsChartOf primes) :
    (chart.initial live).Leaves selection.essential
      between :=
  leaves_of_extraction
    (Residue.leaves_refl (chart.initial live))
    (h.distinct_initial live) hRun.extraction

/- Nothing stays live, and every row taken is an implicant. -/
theorem IsRun.exists_leaves
    {selection : Selection}
    {between : Residue}
    (hRun : chart.IsRun table selection live between)
    (h : chart.IsChartOf primes) :
    ∃ last,
      (chart.initial live).Leaves
          (selection.essential ++
            selection.greedy.map Pick.row) last ∧
        ∀ column, last.live.contains column ≠ true := by
  exact leaves_of_greedyRun (hRun.leaves_between h)
    (h.distinct_initial live) hRun.greedyRun

/- The columns where a table holds start out live. -/
theorem IsRun.exists_column_of_holds
    {selection : Selection}
    {between : Residue}
    (hRun : chart.IsRun table selection live between)
    {assignment : List Bool}
    (hHolds : table.Holds assignment) :
    ∃ column, live.contains column = true ∧
      Row.bitsOfIndex column chart.arity = assignment := by
  rcases Row.exists_bitsOfIndex_eq assignment with
    ⟨column, hLt, hBits⟩
  rw [Table.length_eq_of_holds hHolds] at hLt hBits
  refine ⟨column, ?_, ?_⟩
  · rw [hRun.live_iff, Table.mem_mintermSet_iff_holds, hBits]
    exact ⟨hLt, hHolds⟩
  · rw [hRun.arity_eq]
    exact hBits

end Selection

theorem mem_implicants_cover_iff
    {selection : Selection}
    {row : Row} :
    row ∈ selection.cover.implicants ↔
      row ∈ selection.essential ++
        selection.greedy.map Pick.row := by
  rw [Cover.mem_implicants_iff, Selection.cover,
    OrderedSet.mem_ofList_iff, List.mem_append]

theorem cover_eq_ok_iff
    {chart : Chart}
    {table : Table}
    {cover : Cover} :
    chart.cover table = .ok cover ↔
      ∃ selection, chart.select table = .ok selection ∧
        selection.cover = cover :=
  map_eq_ok_iff

/-
  A cover consists of implicants of the chart, and together
  they hold wherever the table does.
-/
theorem IsChartOf.covers_of_cover_eq_ok
    {primes : RowSet}
    {chart : Chart}
    {table : Table}
    {cover : Cover}
    (h : chart.IsChartOf primes)
    (hCover : chart.cover table = .ok cover) :
    (∀ row ∈ cover.implicants, row ∈ primes) ∧
      ∀ assignment, table.Holds assignment →
        ∃ row ∈ cover.implicants,
          row.satisfiedBy assignment = true := by
  rcases cover_eq_ok_iff.1 hCover with
    ⟨selection, hSelect, rfl⟩
  rcases h.exists_isRun hSelect with ⟨live, between, hRun⟩
  rcases hRun.exists_leaves h with ⟨last, hLeaves, hDead⟩
  refine ⟨fun row hRow => ?_, fun assignment hHolds => ?_⟩
  · rcases hLeaves.exists_line row
        (mem_implicants_cover_iff.1 hRow) with
      ⟨line, hLine, rfl⟩
    exact h.mem_implicants_iff.1 (List.mem_map_of_mem hLine)
  · rcases hRun.exists_column_of_holds hHolds with
      ⟨column, hLive, hBits⟩
    rcases hLeaves.exists_line_of_dead hLive
        (hDead column) with
      ⟨line, hLine, hTaken, hContains⟩
    refine ⟨line.row, mem_implicants_cover_iff.2 hTaken, ?_⟩
    rw [← hBits]
    exact (((h.isLine line hLine).contains_iff column).1
      hContains).2

end Chart

end TwoLevel
