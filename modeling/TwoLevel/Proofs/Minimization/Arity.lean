import TwoLevel.Proofs.Chart.Agreement
import TwoLevel.Proofs.Minimization.Outcome
import TwoLevel.Proofs.Table.Sources

/-
  This file shows that a run keeps to the variables of its
  table, from the first round to the cover. Merging two rows
  gives a row over the same variables, so every round has rows
  of one arity only. Then so have the primes, their chart and
  each cover selected from it, and the chart lists its rows in
  their order and has a column for every assignment.

  Key definitions include:
    * `Chart.IsOrderly`
    * `Table.KeepsArity`

  Main theorems:
    * `Chart.IsChartOf.isOrderly`
    * `keepsArity`
    * `isOrderly_of_source`
-/

namespace TwoLevel

namespace Chart

/-
  A chart over so many variables: its rows are over just
  these, ascending, and each has all assignments as columns.
-/
structure IsOrderly
    (arity : Nat)
    (chart : Chart) : Prop where
  arity_eq : chart.arity = arity
  implicant_arity :
    ∀ row ∈ chart.implicants, row.arity = arity
  ascending : chart.implicants.Pairwise Row.Precedes
  line_width :
    ∀ line ∈ chart.lines,
      line.columns.width = assignmentCount arity
  width_eq : chart.width = assignmentCount arity

theorem IsChartOf.isOrderly
    {primes : RowSet}
    {chart : Chart}
    {arity : Nat}
    (h : chart.IsChartOf primes)
    (hArity : chart.arity = arity)
    (hPrimes : ∀ prime ∈ primes, prime.arity = arity) :
    chart.IsOrderly arity := by
  subst hArity
  refine
    { arity_eq := rfl
      implicant_arity := ?_
      ascending := ?_
      line_width := fun line hLine =>
        (h.isLine line hLine).width_eq
      width_eq := h.width_eq }
  · intro row hRow
    exact hPrimes row (h.mem_implicants_iff.1 hRow)
  · rw [h.implicants_eq]
    exact Row.pairwise_precedes hPrimes

end Chart

namespace Table

/-
  What a run over a table has of its arity: the rows of every
  round, the primes, the chart if there is one, and the rows
  that either stage selects from it.
-/
structure KeepsArity
    (table : Table)
    (rounds : List Round)
    (primes : RowSet) : Prop where
  working_arity :
    ∀ round ∈ rounds, ∀ row ∈ round.working,
      row.arity = table.arity
  prime_arity : ∀ prime ∈ primes, prime.arity = table.arity
  chart_orderly :
    ∀ chart, Chart.ofPrimes primes = .ok chart →
      chart.IsOrderly table.arity
  essential_arity :
    ∀ chart cover, Chart.ofPrimes primes = .ok chart →
      chart.cover table = .ok cover →
        ∀ row ∈ cover.essential, row.arity = table.arity
  greedy_arity :
    ∀ chart cover, Chart.ofPrimes primes = .ok chart →
      chart.cover table = .ok cover →
        ∀ row ∈ cover.greedy, row.arity = table.arity

section Runs

variable {config : Config}
variable {table : Table}
variable {primes : RowSet}

theorem arity_of_mem_implicants
    (hReduce : table.reduce config = .ok primes)
    {chart : Chart}
    {cover : Cover}
    (hChart : Chart.ofPrimes primes = .ok chart)
    (hCover : chart.cover table = .ok cover) :
    ∀ row ∈ cover.implicants, row.arity = table.arity := by
  intro row hRow
  have h := Chart.isChartOf_of_ofPrimes hChart
  exact arity_of_mem_reduce hReduce
    ((h.covers_of_cover_eq_ok hCover).1 row hRow)

theorem keepsArity
    {rounds : List Round}
    (hRounds : table.reduction config = .ok rounds)
    (hReduce : table.reduce config = .ok primes) :
    table.KeepsArity rounds primes := by
  have hRow :
      ∀ row ∈ table.rows.toList, row.arity = table.arity := by
    intro row hRow
    exact table.row_arity row
      (OrderedSet.mem_toList_iff.1 hRow)
  refine
    { working_arity := ?_
      prime_arity := fun _ hPrime =>
        arity_of_mem_reduce hReduce hPrime
      chart_orderly := ?_
      essential_arity := ?_
      greedy_arity := ?_ }
  · unfold reduction at hRounds
    split at hRounds
    · cases hRounds
    · cases hRounds
      exact arity_of_mem_working hRow
  · intro chart hChart
    have h := Chart.isChartOf_of_ofPrimes hChart
    exact h.isOrderly (h.arity_eq_of_reduce hReduce)
      (fun _ hPrime => arity_of_mem_reduce hReduce hPrime)
  · intro chart cover hChart hCover row hMem
    exact arity_of_mem_implicants hReduce hChart hCover row
      (Cover.mem_implicants_iff.2 (.inl hMem))
  · intro chart cover hChart hCover row hMem
    exact arity_of_mem_implicants hReduce hChart hCover row
      (Cover.mem_implicants_iff.2 (.inr hMem))

end Runs

/-
  Whatever a table is made of, it consists of the rows put in,
  and these are over its variables and in order. If there are
  any, the rounds and the primes exist and keep to the
  variables, and so do the chart and the cover, which exist if
  the arity is enumerable.
-/
theorem isOrderly_of_source
    {source : Source}
    {table : Table}
    (h : source.table = .ok table) :
    (∃ rows, source.listed = .ok rows ∧
      (∀ row ∈ rows, row.arity = table.arity) ∧
      table.rows = OrderedSet.ofList rows) ∧
    table.IsOrderly ∧
    (table.isEmpty = false → ∀ config : Config,
      ∃ rounds primes,
        table.reduction config = .ok rounds ∧
        table.reduce config = .ok primes ∧
        table.KeepsArity rounds primes ∧
        (table.arity ≤ maxEnumerable →
          ∃ chart cover,
            Chart.ofPrimes primes = .ok chart ∧
            chart.cover table = .ok cover)) := by
  refine ⟨?_, table.isOrderly, fun hRows config => ?_⟩
  · rcases source.exists_listed h with
      ⟨rows, hListed, hTable⟩
    rcases ofRows_eq_ok_iff.1 hTable with
      ⟨hArity, _, hEq⟩
    exact ⟨rows, hListed, hArity, hEq⟩
  · have hRounds :
        table.reduction config =
          .ok (rounds config table.rows.toList) := by
      rw [reduction, hRows]
      rfl
    have hReduce := reduce_eq_ok config hRows
    refine ⟨_, _, hRounds, hReduce,
      keepsArity hRounds hReduce, fun hLe => ?_⟩
    rcases exists_minimize_eq_ok config hRows hLe with
      ⟨result, hResult⟩
    rcases exists_chart_of_minimize_eq_ok hResult with
      ⟨hPrimes, chart, hChart, hCover⟩
    rw [hReduce] at hPrimes
    rw [← Except.ok.inj hPrimes] at hChart
    exact ⟨chart, result.cover, hChart, hCover⟩

/- A text of rows with remarks, which repeats one of them. -/
def remarkedRows : Source :=
  .text "# cubes\n1-0 011\n  1-0\n"

/-
  The text makes a table of three variables, and a run over it
  keeps to these.
-/
theorem isOrderly_of_remarkedRows :
    ∃ table, remarkedRows.table = .ok table ∧
      table.arity = 3 ∧
      table.IsOrderly ∧
      ∃ rounds primes chart cover,
        table.reduction {} = .ok rounds ∧
        table.reduce {} = .ok primes ∧
        Chart.ofPrimes primes = .ok chart ∧
        chart.cover table = .ok cover ∧
        table.KeepsArity rounds primes := by
  have hOk :
      remarkedRows.table.map
        (fun table => (table.arity, table.isEmpty)) =
          .ok (3, false) := by
    decide +kernel
  rcases map_eq_ok_iff.1 hOk with ⟨table, hTable, hBoth⟩
  rcases Prod.mk.inj hBoth with ⟨hArity, hRows⟩
  have hLe : table.arity ≤ maxEnumerable := by
    rw [hArity]
    decide
  rcases isOrderly_of_source hTable with
    ⟨_, hOrderly, hRuns⟩
  rcases hRuns hRows {} with
    ⟨rounds, primes, hRounds, hReduce, hKeeps, hExists⟩
  rcases hExists hLe with ⟨chart, cover, hChart, hCover⟩
  exact ⟨table, hTable, hArity, hOrderly, rounds, primes,
    chart, cover, hRounds, hReduce, hChart, hCover, hKeeps⟩

end Table

end TwoLevel
