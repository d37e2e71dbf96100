import Mathlib.Tactic.TFAE
import TwoLevel.Proofs.Chart.Building
import TwoLevel.Proofs.Row.Polling

/-
  This file shows that all ways to ask whether an implicant
  holds in a column of its chart agree. The mark of the line,
  the lines listed for the column, the masks, the enumeration
  of assignments and the positions of the row all speak of the
  same assignment, the one that the column stands for.

  Main theorems:
    * `IsChartOf.exists_isLine`
    * `mem_satisfiers_iff`
    * `IsChartOf.satisfies?_iff_metBy`
    * `IsChartOf.ascending`
    * `exists_ofPrimes_tfae`
-/

namespace TwoLevel

namespace Chart

section Reading

variable {primes : RowSet}
variable {chart : Chart}
variable {k column : Nat}
variable {row : Row}

------------------------------------------------------------
-- Lines by Position
------------------------------------------------------------

/- The implicant at a position has the line there. -/
theorem IsChartOf.exists_isLine
    (h : chart.IsChartOf primes)
    (hk : chart.implicant? k = some row) :
    ∃ line, chart.lines[k]? = some line ∧
      line.row = row ∧ IsLine chart.arity line := by
  rw [implicant?, implicants, List.getElem?_map,
    Option.map_eq_some_iff] at hk
  rcases hk with ⟨line, hLine, hRow⟩
  exact ⟨line, hLine, hRow,
    h.isLine line (List.mem_of_getElem? hLine)⟩

/- The lines listed for a column are those marked in it. -/
theorem mem_satisfiers_iff :
    k ∈ chart.satisfiers column ↔
      chart.satisfies? k column = some true := by
  rw [satisfiers, List.mem_filterMap, satisfies?,
    Option.map_eq_some_iff]
  constructor
  · intro hGiven
    rcases hGiven with ⟨⟨line, position⟩, hLine, hMark⟩
    rw [List.mem_zipIdx_iff_getElem?] at hLine
    rcases Option.ite_none_right_eq_some.1 hMark with
      ⟨hContains, hPosition⟩
    cases hPosition
    exact ⟨line, hLine, hContains⟩
  · intro hGiven
    rcases hGiven with ⟨line, hLine, hContains⟩
    refine ⟨(line, k), ?_, if_pos hContains⟩
    rw [List.mem_zipIdx_iff_getElem?]
    exact hLine

------------------------------------------------------------
-- Marks and Assignments
------------------------------------------------------------

theorem IsChartOf.arity_of_implicant?
    (h : chart.IsChartOf primes)
    (hk : chart.implicant? k = some row) :
    row.arity = chart.arity := by
  rcases h.exists_isLine hk with ⟨line, _, rfl, hLine⟩
  exact hLine.arity_eq

/- A mark says that the column's assignment meets the row. -/
theorem IsChartOf.satisfies?_iff_metBy
    (h : chart.IsChartOf primes)
    (hk : chart.implicant? k = some row)
    (hColumn : column < assignmentCount chart.arity) :
    chart.satisfies? k column = some true ↔
      row.MetBy (chart.assignment column) := by
  rcases h.exists_isLine hk with ⟨line, hLine, rfl, hIsLine⟩
  rw [satisfies?, hLine, Option.map_some, Option.some.injEq,
    hIsLine.contains_iff, and_iff_right hColumn, assignment,
    Row.metBy_ofIndex_iff]

/- There is no mark beyond the last column. -/
theorem IsChartOf.satisfies?_eq_false
    (h : chart.IsChartOf primes)
    (hk : chart.implicant? k = some row)
    (hColumn : assignmentCount chart.arity ≤ column) :
    chart.satisfies? k column = some false := by
  rcases h.exists_isLine hk with ⟨line, hLine, _, hIsLine⟩
  have hNone : line.columns.contains column = false := by
    rw [← Bool.not_eq_true, hIsLine.contains_iff]
    exact fun hBoth => Nat.not_lt_of_le hColumn hBoth.1
  rw [satisfies?, hLine, Option.map_some, hNone]

theorem IsChartOf.ascending
    (h : chart.IsChartOf primes) :
    chart.implicants.Pairwise
      (fun a b => compare a b = .lt) := by
  rw [h.implicants_eq]
  exact primes.ascending

end Reading

------------------------------------------------------------
-- Charts of One Arity
------------------------------------------------------------

/-
  Implicants of one arity have a chart of all assignments. For
  each of its lines and columns it is the same to look at the
  mark, to check the row on the column's assignment, to mask
  the column, to enumerate the row and to list the lines of
  the column. Beyond the last column nothing is marked.
-/
theorem exists_ofPrimes_tfae
    {primes : RowSet}
    {arity : Nat}
    (hPrimes : primes.isEmpty = false)
    (hArity : ∀ row ∈ primes, row.arity = arity)
    (hPos : 0 < arity)
    (hLe : arity ≤ maxEnumerable) :
    ∃ chart, ofPrimes primes = .ok chart ∧
      chart.arity = arity ∧
      chart.width = assignmentCount arity ∧
      chart.implicants.Pairwise
        (fun a b => compare a b = .lt) ∧
      (∀ row, row ∈ chart.implicants ↔ row ∈ primes) ∧
      ∀ k row, chart.implicant? k = some row →
        (∀ column, column < assignmentCount arity →
          List.TFAE
            [chart.satisfies? k column = some true,
              row.MetBy (chart.assignment column),
              column &&& row.masks.care = row.masks.value,
              column ∈ row.assignments,
              k ∈ chart.satisfiers column]) ∧
        ∀ column, assignmentCount arity ≤ column →
          chart.satisfies? k column = some false := by
  rcases exists_ofPrimes_eq_ok hPrimes hArity hPos hLe with
    ⟨chart, hChart, rfl⟩
  have h := isChartOf_of_ofPrimes hChart
  refine ⟨chart, hChart, rfl, h.width_eq, h.ascending,
    fun row => h.mem_implicants_iff, ?_⟩
  intro k row hk
  have hRow := h.arity_of_implicant? hk
  refine ⟨fun column hColumn => ?_, fun column hColumn =>
    h.satisfies?_eq_false hk hColumn⟩
  tfae_have 1 ↔ 2 := h.satisfies?_iff_metBy hk hColumn
  tfae_have 3 ↔ 2 := by
    rw [assignment, ← hRow]
    exact Row.and_care_eq_value_iff
  tfae_have 4 ↔ 2 := by
    rw [Row.mem_assignments_iff_metBy, hRow,
      and_iff_right hColumn, assignment]
  tfae_have 5 ↔ 1 := mem_satisfiers_iff
  tfae_finish

/- Two implicants over three variables, none symmetric. -/
def slanted : RowSet :=
  OrderedSet.ofList
    [⟨[.one, .dontCare, .zero]⟩, ⟨[.zero, .one, .dontCare]⟩]

/-
  The row `1-0` holds in the column `110`. There is no column
  after `111`.
-/
theorem exists_ofPrimes_slanted_tfae :
    slanted.isEmpty = false ∧
      (∀ row ∈ slanted, row.arity = 3) ∧
      ∃ chart, ofPrimes slanted = .ok chart ∧
        chart.width = 8 ∧
        chart.implicant? 1 =
          some ⟨[.one, .dontCare, .zero]⟩ ∧
        chart.satisfies? 1 6 = some true ∧
        1 ∈ chart.satisfiers 6 ∧
        chart.satisfies? 1 8 = some false := by
  have hRows : slanted.isEmpty = false := by decide +kernel
  have hArity : ∀ row ∈ slanted, row.arity = 3 := by
    decide +kernel
  rcases exists_ofPrimes_tfae hRows hArity (by decide)
      (by decide) with
    ⟨chart, hChart, _, hWidth, _, _, hLines⟩
  have hFirst :
      chart.implicant? 1 =
        some ⟨[.one, .dontCare, .zero]⟩ := by
    rw [implicant?,
      (isChartOf_of_ofPrimes hChart).implicants_eq]
    decide +kernel
  rcases hLines 1 _ hFirst with ⟨hAgree, hBeyond⟩
  have hTfae := hAgree 6 (by decide)
  have hMasked :
      6 &&& (Row.masks ⟨[.one, .dontCare, .zero]⟩).care =
        (Row.masks ⟨[.one, .dontCare, .zero]⟩).value := by
    decide
  exact ⟨hRows, hArity, chart, hChart, hWidth, hFirst,
    (hTfae.out 2 0).1 hMasked, (hTfae.out 2 4).1 hMasked,
    hBeyond 8 (by decide)⟩

end Chart

end TwoLevel
