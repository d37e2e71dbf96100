import TwoLevel.Proofs.Cover.GreedyStage

/-
  This file compares a cover with the other sets of implicants
  that hold wherever the table does. Each of them has all the
  essential rows, and its other rows cover what these leave
  over. So comparing covers is comparing the greedy rows with
  what a competitor has besides the essential ones.

  Key definitions include:
    * `Covers`
    * `Chart.IsCoverOf`

  Main theorems:
    * `mem_essential_iff`
    * `exists_rest_of_isCoverOf`
-/

namespace TwoLevel

/- On each of the assignments some row holds. -/
def Covers
    (rows : Finset Row)
    (assignments : Finset (List Bool)) : Prop :=
  ∀ assignment ∈ assignments,
    ∃ row ∈ rows, row.satisfiedBy assignment = true

/- What is left of covered assignments is covered as well. -/
theorem Covers.remainder
    {rows : Finset Row}
    {assignments : Finset (List Bool)}
    (h : Covers rows assignments)
    (others : List Row) :
    Covers rows (remainder assignments others) := by
  intro assignment hLeft
  exact h assignment (mem_remainder_iff.1 hLeft).1

namespace Chart

/- A set of implicants that hold wherever a table does. -/
structure IsCoverOf
    (chart : Chart)
    (table : Table)
    (rows : RowSet) : Prop where
  mem_implicants : ∀ row ∈ rows, row ∈ chart.implicants
  covers :
    ∀ assignment, table.Holds assignment →
      ∃ row ∈ rows, row.satisfiedBy assignment = true

section Competitors

variable {primes rows : RowSet}
variable {chart : Chart}
variable {table : Table}
variable {cover : Cover}

theorem IsChartOf.mem_essential_iff
    (h : chart.IsChartOf primes)
    (hCover : chart.cover table = .ok cover)
    {row : Row} :
    row ∈ cover.essential ↔
      chart.IsSoleImplicant table row := by
  rcases cover_eq_ok_iff.1 hCover with
    ⟨selection, hSelect, rfl⟩
  rcases h.exists_isRun hSelect with ⟨live, between, hRun⟩
  rw [Selection.cover, OrderedSet.mem_ofList_iff,
    mem_iff_isEssential_of_extraction
      (h.distinct_initial live) hRun.extraction
      hRun.exhausted,
    hRun.isEssential_initial_iff h]

/-
  Every competitor consists of the essential rows and of rows
  that cover what they leave over.
-/
theorem IsChartOf.exists_rest_of_isCoverOf
    (h : chart.IsChartOf primes)
    (hCover : chart.cover table = .ok cover)
    (hRows : chart.IsCoverOf table rows) :
    ∃ rest : Finset Row,
      (∀ row ∈ rest, row ∈ chart.implicants) ∧
        Covers rest
          (remainder table.onSet cover.essential.toList) ∧
        rest.card + cover.essential.size = rows.size := by
  have hEssential :
      cover.essential.toFinset ⊆ rows.toFinset := by
    intro row hRow
    rw [OrderedSet.mem_toFinset_iff] at hRow ⊢
    exact mem_of_isSoleImplicant
      ((h.mem_essential_iff hCover).1 hRow)
      hRows.mem_implicants hRows.covers
  refine ⟨rows.toFinset \ cover.essential.toFinset,
    fun row hRow => ?_, fun assignment hLeft => ?_, ?_⟩
  · rw [Finset.mem_sdiff, OrderedSet.mem_toFinset_iff] at hRow
    exact hRows.mem_implicants row hRow.1
  · have hOn := (mem_remainder_iff.1 hLeft).1
    rcases hRows.covers assignment
        (Table.mem_onSet_iff.1 hOn) with ⟨row, hRow, hSat⟩
    refine ⟨row, ?_, hSat⟩
    rw [Finset.mem_sdiff, OrderedSet.mem_toFinset_iff,
      OrderedSet.mem_toFinset_iff]
    exact ⟨hRow, fun hMem =>
      not_mem_of_mem_remainder hLeft hSat
        (OrderedSet.mem_toList_iff.2 hMem)⟩
  · rw [← OrderedSet.card_toFinset, ← OrderedSet.card_toFinset,
      Finset.card_sdiff_add_card_eq_card hEssential]

end Competitors

end Chart

end TwoLevel
