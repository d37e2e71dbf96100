import TwoLevel.Proofs.Cover.Competitors
import TwoLevel.Proofs.Minimization.Outcome
import TwoLevel.Proofs.Reduction.FixedPoints
import TwoLevel.Proofs.Reduction.PrimeImplicants

/-
  This file settles what comes of minimizing a result again.
  The selected rows of a table of assignments are primes of
  one run, so no two of them merge and reducing them changes
  nothing. The second chart has fewer lines than the first. A
  row that was a sole satisfier there still is one, and what
  the second run selects is part of what it was given.

  Main theorems:
    * `MergeFree.of_subset`
    * `Chart.IsSoleImplicant.of_subset`
    * `holds_iff_exists_implicant`
    * `reduce_eq_rows_of_mergeFree`
    * `exists_minimize_implicants_of_mergeFree`
    * `exists_minimize_implicants`
-/

namespace TwoLevel

theorem MergeFree.of_subset
    {rows others : List Row}
    (h : MergeFree rows)
    (hSubset : ∀ row ∈ others, row ∈ rows) :
    MergeFree others :=
  fun a ha b hb => h a (hSubset a ha) b (hSubset b hb)

/- A row stays the only one when implicants are left out. -/
theorem Chart.IsSoleImplicant.of_subset
    {chart part : Chart}
    {table other : Table}
    {row : Row}
    (h : chart.IsSoleImplicant table row)
    (hSubset :
      ∀ implicant ∈ part.implicants,
        implicant ∈ chart.implicants)
    (hRow : row ∈ part.implicants)
    (hHolds :
      ∀ assignment, table.Holds assignment →
        other.Holds assignment) :
    part.IsSoleImplicant other row := by
  rcases h with ⟨_, assignment, hOn, hSat, hSole⟩
  refine ⟨hRow, assignment, hHolds assignment hOn, hSat, ?_⟩
  intro implicant hImplicant
  exact hSole implicant (hSubset implicant hImplicant)

namespace Table

section Repetition

variable {config : Config}
variable {table : Table}
variable {result : Minimized}

------------------------------------------------------------
-- The Selected Rows as a Table
------------------------------------------------------------

theorem mem_primes_of_mem_implicants
    (h : table.minimize config = .ok result)
    {row : Row}
    (hRow : row ∈ result.implicants) :
    row ∈ result.primes := by
  rcases exists_chart_of_minimize_eq_ok h with
    ⟨_, chart, hChart, hCover⟩
  exact ((Chart.isChartOf_of_ofPrimes
    hChart).covers_of_cover_eq_ok hCover).1 row hRow

/- The selected rows hold just where the table does. -/
theorem holds_iff_exists_implicant
    (h : table.minimize config = .ok result)
    (assignment : List Bool) :
    table.Holds assignment ↔
      ∃ row ∈ result.implicants,
        row.satisfiedBy assignment = true := by
  rw [← evaluate_iff_holds h,
    Minimized.evaluate_iff_exists_implicant]

/- A table with a row holds somewhere, so a row is selected. -/
theorem isEmpty_implicants_eq_false
    (h : table.minimize config = .ok result) :
    result.implicants.isEmpty = false := by
  have hRows :=
    (reduce_eq_ok_iff.1 (exists_chart_of_minimize_eq_ok h).1).1
  rcases OrderedSet.exists_first?_eq_some hRows with
    ⟨row, hRow, _⟩
  rcases row.exists_satisfiedBy with ⟨assignment, hSat⟩
  rcases (holds_iff_exists_implicant h assignment).1
      ⟨row, hRow, hSat⟩ with ⟨selected, hSelected, _⟩
  exact OrderedSet.isEmpty_eq_false_of_mem hSelected

/- The selected rows can be listed as a table. -/
theorem exists_ofRows_implicants_eq_ok
    (h : table.minimize config = .ok result) :
    ∃ listed,
      Table.ofRows table.arity result.implicants.toList =
          .ok listed ∧
        listed.arity = table.arity ∧
        listed.rows = result.implicants := by
  have hReduce := (exists_chart_of_minimize_eq_ok h).1
  rcases exists_ofRows_eq_ok table.arity_pos
      (fun _ hRow => arity_of_mem_reduce hReduce
        (mem_primes_of_mem_implicants h hRow)) with
    ⟨listed, hListed, hArity, hRows⟩
  exact ⟨listed, hListed, hArity, hRows.trans
    (OrderedSet.ofList_toList result.implicants)⟩

------------------------------------------------------------
-- Minimizing Again
------------------------------------------------------------

/- Rows that do not merge are their own primes. -/
theorem reduce_eq_rows_of_mergeFree
    (config : Config)
    (hRows : table.isEmpty = false)
    (h : MergeFree table.rows.toList) :
    table.reduce config = .ok table.rows := by
  rw [reduce_eq_ok config hRows,
    primesOf_rounds_of_mergeFree h]

section Listed

variable {config' : Config}
variable {listed : Table}
variable {again : Minimized}

/- The table of the selected rows stands for the same. -/
theorem holds_iff_of_rows_eq_implicants
    (h : table.minimize config = .ok result)
    (hListed : listed.rows = result.implicants)
    (assignment : List Bool) :
    listed.Holds assignment ↔ table.Holds assignment := by
  rw [holds_iff_exists_implicant h, Holds, hListed]

theorem isEmpty_eq_false_of_rows_eq_implicants
    (h : table.minimize config = .ok result)
    (hListed : listed.rows = result.implicants) :
    listed.isEmpty = false := by
  rw [isEmpty, hListed]
  exact isEmpty_implicants_eq_false h

/- Some primes of a merge-free set are merge-free too. -/
theorem primes_eq_implicants
    (h : table.minimize config = .ok result)
    (hFree : MergeFree result.primes.toList)
    (hListed : listed.rows = result.implicants)
    (hAgain : listed.minimize config' = .ok again) :
    again.primes = result.implicants := by
  have hListedFree : MergeFree listed.rows.toList := by
    rw [hListed]
    exact hFree.of_subset
      (fun _ => mem_primes_of_mem_implicants h)
  have hReduce := (exists_chart_of_minimize_eq_ok hAgain).1
  rw [reduce_eq_rows_of_mergeFree config'
      (isEmpty_eq_false_of_rows_eq_implicants h hListed)
      hListedFree, hListed] at hReduce
  exact (Except.ok.inj hReduce).symm

/- A row without rivals has none among fewer rows. -/
theorem mem_essential_again
    (h : table.minimize config = .ok result)
    (hListed : listed.rows = result.implicants)
    (hAgain : listed.minimize config' = .ok again)
    (hPrimes : again.primes = result.implicants)
    {row : Row}
    (hRow : row ∈ result.cover.essential) :
    row ∈ again.cover.essential := by
  rcases exists_chart_of_minimize_eq_ok h with
    ⟨_, chart, hChart, hCover⟩
  rcases exists_chart_of_minimize_eq_ok hAgain with
    ⟨_, part, hPart, hPartCover⟩
  have hIsChart := Chart.isChartOf_of_ofPrimes hChart
  have hIsPart := Chart.isChartOf_of_ofPrimes hPart
  have hSole := (hIsChart.mem_essential_iff hCover).1 hRow
  refine (hIsPart.mem_essential_iff hPartCover).2
    (hSole.of_subset ?_ ?_
      (fun assignment =>
        (holds_iff_of_rows_eq_implicants h hListed
          assignment).2))
  · intro implicant hImplicant
    rw [hIsPart.mem_implicants_iff, hPrimes] at hImplicant
    rw [hIsChart.mem_implicants_iff]
    exact mem_primes_of_mem_implicants h hImplicant
  · rw [hIsPart.mem_implicants_iff, hPrimes]
    exact Cover.mem_implicants_iff.2 (.inl hRow)

end Listed

/-
  The second run charts the selected rows alone. Its cover is
  part of them, and keeps the rows that were essential.
-/
theorem exists_minimize_implicants_of_mergeFree
    (config' : Config)
    (h : table.minimize config = .ok result)
    (hLe : table.arity ≤ maxEnumerable)
    (hFree : MergeFree result.primes.toList) :
    ∃ listed again,
      Table.ofRows table.arity result.implicants.toList =
        .ok listed ∧
      listed.minimize config' = .ok again ∧
      again.primes = result.implicants ∧
      (∀ row ∈ again.implicants, row ∈ result.implicants) ∧
      (∀ row ∈ result.cover.essential,
        row ∈ again.cover.essential) ∧
      ∀ assignment,
        again.evaluate assignment =
          result.evaluate assignment := by
  rcases exists_ofRows_implicants_eq_ok h with
    ⟨listed, hListed, hArity, hRows⟩
  rcases exists_minimize_eq_ok config'
      (isEmpty_eq_false_of_rows_eq_implicants h hRows)
      (hArity ▸ hLe) with ⟨again, hAgain⟩
  have hPrimes := primes_eq_implicants h hFree hRows hAgain
  refine ⟨listed, again, hListed, hAgain, hPrimes, ?_,
    fun _ => mem_essential_again h hRows hAgain hPrimes, ?_⟩
  · intro row hRow
    rw [← hPrimes]
    exact mem_primes_of_mem_implicants hAgain hRow
  · intro assignment
    rw [Bool.eq_iff_iff, evaluate_iff_holds hAgain,
      evaluate_iff_holds h,
      holds_iff_of_rows_eq_implicants h hRows]

end Repetition

/-
  Minimizing what is selected for a table of assignments has
  all selected rows as its primes. It selects some of them
  again, all essential ones for certain, and its result is
  true on the same assignments.
-/
theorem exists_minimize_implicants
    (config config' : Config)
    {table : Table}
    (hRows : table.isEmpty = false)
    (hLe : table.arity ≤ maxEnumerable)
    (hFull :
      ∀ row ∈ table.rows, row.isAssignment = true) :
    ∃ result listed again,
      table.minimize config = .ok result ∧
      Table.ofRows table.arity result.implicants.toList =
        .ok listed ∧
      listed.minimize config' = .ok again ∧
      again.primes = result.implicants ∧
      (∀ row ∈ again.implicants, row ∈ result.implicants) ∧
      (∀ row ∈ result.cover.essential,
        row ∈ again.cover.essential) ∧
      ∀ assignment,
        again.evaluate assignment =
          result.evaluate assignment := by
  rcases exists_minimize_eq_ok config hRows hLe with
    ⟨result, h⟩
  have hFree : MergeFree result.primes.toList := by
    rcases reduce_eq_ok_iff.1
        (exists_chart_of_minimize_eq_ok h).1 with ⟨_, hPrimes⟩
    rw [hPrimes]
    exact mergeFree_primesOf_rounds
      (fun row hRow => Row.isAssignment_iff.1
        (hFull row hRow))
  rcases exists_minimize_implicants_of_mergeFree config' h hLe
      hFree with ⟨listed, again, hAgain⟩
  exact ⟨result, listed, again, h, hAgain⟩

/- Two essential and two greedy rows, minimized again. -/
theorem exists_minimize_implicants_sevenMinterms :
    sevenMinterms.isEmpty = false ∧
      sevenMinterms.arity ≤ maxEnumerable ∧
      (∀ row ∈ sevenMinterms.rows,
        row.isAssignment = true) ∧
      ∃ result listed again,
        sevenMinterms.minimize {} = .ok result ∧
        Table.ofRows sevenMinterms.arity
            result.implicants.toList =
          .ok listed ∧
        listed.minimize {} = .ok again ∧
        again.primes = result.implicants ∧
        (∀ row ∈ again.implicants,
          row ∈ result.implicants) ∧
        (∀ row ∈ result.cover.essential,
          row ∈ again.cover.essential) ∧
        ∀ assignment,
          again.evaluate assignment =
            result.evaluate assignment := by
  have hRows : sevenMinterms.isEmpty = false := by
    decide +kernel
  have hLe : sevenMinterms.arity ≤ maxEnumerable := by
    decide +kernel
  have hFull :
      ∀ row ∈ sevenMinterms.rows,
        row.isAssignment = true := by
    decide +kernel
  exact ⟨hRows, hLe, hFull,
    exists_minimize_implicants {} {} hRows hLe hFull⟩

end Table

end TwoLevel
