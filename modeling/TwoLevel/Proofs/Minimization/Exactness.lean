import TwoLevel.Minimization
import TwoLevel.Proofs.Cover.Selection
import TwoLevel.Proofs.Reduction.Rounds

/-
  This file proves minimization exact. The primes stand for
  the function of the table, and the cover consists of primes
  and misses no assignment, so it stands for the function too.

  Main theorems:
    * `arity_eq_of_reduce`
    * `exists_chart_of_minimize_eq_ok`
    * `evaluate_iff_exists_implicant`
    * `evaluate_iff_holds`
    * `evaluate_minimize_iff`
-/

namespace TwoLevel

/- The chart of the primes is over the table's variables. -/
theorem Chart.IsChartOf.arity_eq_of_reduce
    {config : Config}
    {table : Table}
    {primes : RowSet}
    {chart : Chart}
    (h : chart.IsChartOf primes)
    (hReduce : table.reduce config = .ok primes) :
    chart.arity = table.arity := by
  rcases List.exists_mem_of_ne_nil _ h.lines_ne_nil with
    ⟨line, hLine⟩
  have hPrime : line.row ∈ primes :=
    h.mem_implicants_iff.1 (List.mem_map_of_mem hLine)
  rw [← (h.isLine line hLine).arity_eq]
  exact Table.arity_of_mem_reduce hReduce hPrime

/- A result is the outcome of all three phases. -/
theorem Table.exists_chart_of_minimize_eq_ok
    {config : Config}
    {table : Table}
    {result : Minimized}
    (h : table.minimize config = .ok result) :
    table.reduce config = .ok result.primes ∧
      ∃ chart, Chart.ofPrimes result.primes = .ok chart ∧
        chart.cover table = .ok result.cover := by
  rcases bind_eq_ok_iff.1 h with ⟨primes, hPrimes, hRest⟩
  rcases bind_eq_ok_iff.1 hRest with ⟨chart, hChart, hLast⟩
  rcases bind_eq_ok_iff.1 hLast with ⟨cover, hCover, hEq⟩
  cases hEq
  exact ⟨hPrimes, chart, hChart, hCover⟩

theorem Minimized.evaluate_iff_exists_implicant
    {result : Minimized}
    {assignment : List Bool} :
    result.evaluate assignment = true ↔
      ∃ row ∈ result.implicants,
        row.satisfiedBy assignment = true := by
  rw [evaluate, Bool.or_eq_true, List.any_eq_true,
    List.any_eq_true]
  constructor
  · intro hGiven
    rcases hGiven with ⟨row, hRow, hSat⟩ | ⟨row, hRow, hSat⟩
    · rw [OrderedSet.mem_toList_iff] at hRow
      exact ⟨row, Cover.mem_implicants_iff.2 (.inl hRow),
        hSat⟩
    · exact ⟨row, Cover.mem_implicants_iff.2 (.inr hRow),
        hSat⟩
  · intro hGiven
    rcases hGiven with ⟨row, hRow, hSat⟩
    rcases Cover.mem_implicants_iff.1 hRow with
      hRow | hRow
    · exact .inl
        ⟨row, OrderedSet.mem_toList_iff.2 hRow, hSat⟩
    · exact .inr ⟨row, hRow, hSat⟩

namespace Table

/- A result is true just where the table holds. -/
theorem evaluate_iff_holds
    {config : Config}
    {table : Table}
    {result : Minimized}
    (h : table.minimize config = .ok result)
    (assignment : List Bool) :
    result.evaluate assignment = true ↔
      table.Holds assignment := by
  rcases exists_chart_of_minimize_eq_ok h with
    ⟨hReduce, chart, hChart, hCover⟩
  have hIsChart := Chart.isChartOf_of_ofPrimes hChart
  rcases hIsChart.covers_of_cover_eq_ok hCover with
    ⟨hPrimes, hCovers⟩
  rw [Minimized.evaluate_iff_exists_implicant]
  constructor
  · intro hGiven
    rcases hGiven with ⟨row, hRow, hSat⟩
    exact (holds_iff_exists_prime hReduce assignment).2
      ⟨row, hPrimes row hRow, hSat⟩
  · intro hHolds
    exact hCovers assignment hHolds

/-
  A result is true just where some row of the table holds, and
  it selects primes only.
-/
theorem evaluate_minimize_iff
    {config : Config}
    {table : Table}
    {result : Minimized}
    (h : table.minimize config = .ok result) :
    (∀ assignment,
      result.evaluate assignment = true ↔
        ∃ row ∈ table.rows,
          row.satisfiedBy assignment = true) ∧
    ∀ row ∈ result.implicants, row ∈ result.primes := by
  rcases exists_chart_of_minimize_eq_ok h with
    ⟨_, chart, hChart, hCover⟩
  have hIsChart := Chart.isChartOf_of_ofPrimes hChart
  rcases hIsChart.covers_of_cover_eq_ok hCover with
    ⟨hPrimes, _⟩
  exact ⟨evaluate_iff_holds h, hPrimes⟩

/- Rows that overlap, with two, one or no don't-care. -/
def overlapping : Table where
  arity := 3
  rows :=
    OrderedSet.ofList
      [⟨[.one, .dontCare, .dontCare]⟩,
        ⟨[.one, .one, .dontCare]⟩,
        ⟨[.zero, .dontCare, .one]⟩,
        ⟨[.one, .zero, .one]⟩]
  arity_pos := by decide
  row_arity := by decide +kernel

theorem evaluate_minimize_overlapping_iff :
    ∃ result, overlapping.minimize {} = .ok result ∧
      (∀ assignment,
        result.evaluate assignment = true ↔
          ∃ row ∈ overlapping.rows,
            row.satisfiedBy assignment = true) ∧
      ∀ row ∈ result.implicants, row ∈ result.primes := by
  have hOk :
      (overlapping.minimize {}).map Minimized.arity =
        .ok 3 := by
    decide +kernel
  rcases map_eq_ok_iff.1 hOk with ⟨result, hResult, _⟩
  exact ⟨result, hResult, evaluate_minimize_iff hResult⟩

end Table

end TwoLevel
