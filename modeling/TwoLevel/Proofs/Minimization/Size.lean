import TwoLevel.Proofs.Minimization.Exactness
import TwoLevel.Proofs.Cover.GreedyStage

/-
  This file shows that minimizing a table does not make it
  larger. Every prime is the union of the table's rows inside
  it, so a selected prime that satisfies something new also
  satisfies the last of some row of the table. The rows that
  are not yet satisfied in full pay for the selection.

  Key definitions include:
    * `unfinished`
    * `IsUnionOf`

  Main theorems:
    * `length_le_card_unfinished`
    * `size_cover_minimize_le`
-/

namespace TwoLevel

------------------------------------------------------------
-- Unfinished Rows
------------------------------------------------------------

/- The rows that are satisfied by some of the assignments. -/
def unfinished
    (parts : Finset Row)
    (assignments : Finset (List Bool)) : Finset Row :=
  parts.filter
    (fun part => (part.among assignments).Nonempty)

theorem unfinished_remainder_subset
    (parts : Finset Row)
    (assignments : Finset (List Bool))
    (rows : List Row) :
    unfinished parts (remainder assignments rows) ⊆
      unfinished parts assignments := by
  intro part hPart
  rcases Finset.mem_filter.1 hPart with
    ⟨hMem, assignment, hShare⟩
  rw [Row.mem_among_iff, mem_remainder_iff] at hShare
  exact Finset.mem_filter.2
    ⟨hMem, assignment,
      Row.mem_among_iff.2 ⟨hShare.1.1, hShare.2⟩⟩

/- A part of a selected row is finished. -/
theorem not_mem_unfinished_of_within
    {parts : Finset Row}
    {assignments : Finset (List Bool)}
    {part row : Row}
    (h : part.Within row) :
    part ∉ unfinished parts (remainder assignments [row]) := by
  intro hPart
  rcases (Finset.mem_filter.1 hPart).2 with
    ⟨assignment, hShare⟩
  rcases Row.mem_among_iff.1 hShare with ⟨hLeft, hSat⟩
  exact not_mem_of_mem_remainder hLeft (h assignment hSat)
    (List.mem_singleton_self row)

/- The row is a union of those parts that lie inside it. -/
def IsUnionOf
    (row : Row)
    (parts : Finset Row) : Prop :=
  ∀ assignment, row.satisfiedBy assignment = true →
    ∃ part ∈ parts, part.Within row ∧
      part.satisfiedBy assignment = true

/-
  Rows that make progress, and are unions of parts, finish a
  part each.
-/
theorem Advances.length_le_card_unfinished
    {parts : Finset Row}
    {assignments : Finset (List Bool)}
    {rows : List Row}
    (h : Advances assignments rows)
    (hUnion : ∀ row ∈ rows, IsUnionOf row parts) :
    rows.length ≤ (unfinished parts assignments).card := by
  induction h with
  | done => exact Nat.zero_le _
  | @step assignments row rows hGain hRest ih =>
      rcases List.forall_mem_cons.1 hUnion with
        ⟨hRow, hRows⟩
      rcases hGain with ⟨assignment, hMem, hSat⟩
      rcases hRow assignment hSat with
        ⟨part, hPart, hWithin, hPartSat⟩
      have hBefore : part ∈ unfinished parts assignments :=
        Finset.mem_filter.2
          ⟨hPart, assignment,
            Row.mem_among_iff.2 ⟨hMem, hPartSat⟩⟩
      have hFewer :
          unfinished parts (remainder assignments [row]) ⊂
            unfinished parts assignments :=
        Finset.ssubset_iff_of_subset
          (unfinished_remainder_subset parts assignments
            [row]) |>.2
          ⟨part, hBefore,
            not_mem_unfinished_of_within hWithin⟩
      have hCard := Finset.card_lt_card hFewer
      have hLater := ih hRows
      rw [List.length_cons]
      omega

------------------------------------------------------------
-- The Size of a Result
------------------------------------------------------------

namespace Table

/- A prime is the union of the table's rows inside it. -/
theorem isUnionOf_of_mem_reduce
    {config : Config}
    {table : Table}
    {primes : RowSet}
    (h : table.reduce config = .ok primes)
    {prime : Row}
    (hPrime : prime ∈ primes) :
    IsUnionOf prime table.rows.toFinset := by
  rcases reduce_eq_ok_iff.1 h with ⟨_, rfl⟩
  intro assignment hSat
  rcases (satisfiedBy_prime_iff hPrime assignment).1 hSat
    with ⟨row, hRow, hWithin, hRowSat⟩
  exact ⟨row, List.mem_toFinset.2 hRow, hWithin, hRowSat⟩

/- The selected rows are at most as many as the rows given. -/
theorem size_cover_minimize_le
    {config : Config}
    {table : Table}
    {result : Minimized}
    (h : table.minimize config = .ok result) :
    result.cover.size ≤ table.size := by
  rcases exists_chart_of_minimize_eq_ok h with
    ⟨hReduce, chart, hChart, hCover⟩
  have hIsChart := Chart.isChartOf_of_ofPrimes hChart
  have hPrimes :=
    (hIsChart.covers_of_cover_eq_ok hCover).1
  rcases Chart.cover_eq_ok_iff.1 hCover with
    ⟨selection, hSelect, hEq⟩
  rcases hIsChart.exists_isRun hSelect with
    ⟨live, between, hRun⟩
  rw [← hEq] at hPrimes ⊢
  have hUnion :
      ∀ row ∈ selection.essential ++
          selection.greedy.map Pick.row,
        IsUnionOf row table.rows.toFinset := by
    intro row hRow
    exact isUnionOf_of_mem_reduce hReduce
      (hPrimes row (Chart.mem_implicants_cover_iff.2 hRow))
  calc
    selection.cover.size ≤
        selection.essential.length +
          (selection.greedy.map Pick.row).length :=
      Nat.add_le_add_right
        (OrderedSet.size_ofList_le selection.essential) _
    _ = (selection.essential ++
          selection.greedy.map Pick.row).length :=
      List.length_append.symm
    _ ≤ (unfinished table.rows.toFinset
          table.onSet).card :=
      (hRun.advances hIsChart).length_le_card_unfinished
        hUnion
    _ ≤ table.rows.toFinset.card :=
      Finset.card_le_card (Finset.filter_subset _ _)
    _ = table.size := OrderedSet.card_toFinset table.rows

theorem size_cover_minimize_overlapping_le :
    ∃ result, overlapping.minimize {} = .ok result ∧
      result.cover.size ≤ overlapping.size := by
  have hOk :
      (overlapping.minimize {}).map Minimized.arity =
        .ok 3 := by
    decide +kernel
  rcases map_eq_ok_iff.1 hOk with ⟨result, hResult, _⟩
  exact ⟨result, hResult, size_cover_minimize_le hResult⟩

end Table

end TwoLevel
