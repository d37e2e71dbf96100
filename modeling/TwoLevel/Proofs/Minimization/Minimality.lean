import Mathlib.Tactic.Choose
import TwoLevel.Proofs.Cover.Competitors
import TwoLevel.Proofs.Minimization.Exactness
import TwoLevel.Proofs.Reduction.PrimeImplicants

/-
  This file shows that a result is as small as any sum of
  products for the same function when the greedy stage picks
  at most two rows. Each product lies inside some prime
  implicant, so a sum of products has no fewer products than
  some cover by primes. Such a cover has the essential rows.
  One more row is needed if something is left over, and two if
  the row with the largest share does not have it all.

  Key definitions include:
    * `Table.IsExpressedBy`

  Main theorems:
    * `exists_isPrimeImplicant_of_isImplicant`
    * `mem_reduce_iff_isPrimeImplicant`
    * `length_le_card_of_length_le_two`
    * `size_implicants_le_of_length_greedy_le_two`
-/

namespace TwoLevel

------------------------------------------------------------
-- Extension to Prime Implicants
------------------------------------------------------------

namespace Row

/-
  An implicant that is not prime merges with some row into a
  larger implicant, which has one demand less.
-/
theorem exists_isPrimeImplicant_of_isImplicant
    {f : List Bool → Prop}
    {arity : Nat}
    {row : Row}
    (h : row.IsImplicant f arity) :
    ∃ prime : Row, prime.IsPrimeImplicant f arity ∧
      row.Within prime := by
  induction hCount : row.literalCount
      using Nat.strongRecOn generalizing row with
  | ind count ih =>
      by_cases hPrime :
          ∀ other, other.IsImplicant f arity →
            ¬ row.StrictlyWithin other
      · exact ⟨row, ⟨h, hPrime⟩, Within.refl row⟩
      · push Not at hPrime
        rcases hPrime with ⟨other, hOther, hStrict⟩
        rcases strictlyWithin_iff.1 hStrict with
          ⟨hWithin, hNe⟩
        rcases exists_partner_of_within hWithin hNe with
          ⟨partner, merged, hMerge, hMerged⟩
        have hLess := (literalCount_of_merge hMerge).1
        rcases ih merged.literalCount (by omega)
            (hOther.of_within hMerged) rfl with
          ⟨prime, hPrime, hInside⟩
        exact ⟨prime, hPrime,
          (left_within_of_merge hMerge).trans hInside⟩

end Row

namespace Table

/- The primes of a table of assignments. -/
theorem mem_reduce_iff_isPrimeImplicant
    {config : Config}
    {table : Table}
    {primes : RowSet}
    (hFull :
      ∀ row ∈ table.rows, row.isAssignment = true)
    (h : table.reduce config = .ok primes)
    {row : Row} :
    row ∈ primes ↔
      row.IsPrimeImplicant
        (fun assignment =>
          Row.ofBools assignment ∈ table.rows)
        table.arity := by
  rw [(reduce_eq_ok_iff.1 h).2,
    mem_primesOf_rounds_iff_isPrimeImplicant
      (isLevel_zero hFull)]
  exact and_iff_left (Nat.zero_le _)

end Table

------------------------------------------------------------
-- Short Greedy Stages
------------------------------------------------------------

section Greedy

variable {implicants : List Row}
variable {rows : Finset Row}
variable {uncovered : Finset (List Bool)}

/- If one implicant has all that is left, so has the pick. -/
theorem IsGreedyChoice.remainder_eq_empty_of_forall
    {pick row : Row}
    (h : IsGreedyChoice implicants uncovered pick)
    (hRow : row ∈ implicants)
    (hAll :
      ∀ assignment ∈ uncovered,
        row.satisfiedBy assignment = true) :
    remainder uncovered [pick] = ∅ := by
  have hShare : row.among uncovered = uncovered :=
    Finset.filter_true_of_mem hAll
  have hMost := h.card_le row hRow
  rw [hShare] at hMost
  have hPick : pick.among uncovered = uncovered :=
    Finset.eq_of_subset_of_card_le
      (Row.among_subset pick uncovered) hMost
  rw [Finset.eq_empty_iff_forall_notMem]
  intro assignment hLeft
  have hMem := (mem_remainder_iff.1 hLeft).1
  rw [← hPick, Row.mem_among_iff] at hMem
  exact not_mem_of_mem_remainder hLeft hMem.2
    (List.mem_singleton_self pick)

/- If the pick does not have it all, no implicant has. -/
theorem IsGreedyChoice.one_lt_card_of_covers
    {pick : Row}
    (h : IsGreedyChoice implicants uncovered pick)
    (hLeft : (remainder uncovered [pick]).Nonempty)
    (hRows : ∀ row ∈ rows, row ∈ implicants)
    (hCovers : Covers rows uncovered) :
    1 < rows.card := by
  by_contra hFew
  have hOnly := Finset.card_le_one.1 (Nat.not_lt.1 hFew)
  rcases hLeft with ⟨assignment, hMem⟩
  rcases hCovers assignment (mem_remainder_iff.1 hMem).1 with
    ⟨row, hRow, _⟩
  have hAll :
      ∀ other ∈ uncovered,
        row.satisfiedBy other = true := by
    intro other hOther
    rcases hCovers other hOther with ⟨single, hSingle, hSat⟩
    rw [hOnly row hRow single hSingle]
    exact hSat
  rw [h.remainder_eq_empty_of_forall (hRows row hRow) hAll]
    at hMem
  exact absurd hMem (Finset.notMem_empty assignment)

/- Up to two picks are as few as any implicants can do. -/
theorem GreedySelection.length_le_card_of_length_le_two
    {picks : List Row}
    (h : GreedySelection implicants uncovered picks)
    (hShort : picks.length ≤ 2)
    (hRows : ∀ row ∈ rows, row ∈ implicants)
    (hCovers : Covers rows uncovered) :
    picks.length ≤ rows.card := by
  cases h with
  | done => exact Nat.zero_le _
  | @pick _ first others hFirst hOthers =>
      cases others with
      | nil =>
          rcases hFirst.exists_mem with ⟨assignment, hMem, _⟩
          rcases hCovers assignment hMem with ⟨row, hRow, _⟩
          exact Finset.card_pos.2 ⟨row, hRow⟩
      | cons second others =>
          rcases hOthers.advances.exists_of_mem
              List.mem_cons_self with ⟨assignment, hMem, _⟩
          have hMany :=
            hFirst.one_lt_card_of_covers
              ⟨assignment, hMem⟩ hRows hCovers
          exact Nat.le_trans hShort hMany

end Greedy

------------------------------------------------------------
-- Smallest Results
------------------------------------------------------------

namespace Table

section Minimality

variable {config : Config}
variable {table : Table}
variable {result : Minimized}
variable {rows : RowSet}

/-
  The rows have the table's variables, and some of them holds
  just on the assignments that the table lists.
-/
structure IsExpressedBy
    (table : Table)
    (rows : RowSet) : Prop where
  arity_eq : ∀ row ∈ rows, row.arity = table.arity
  holds_iff :
    ∀ assignment, assignment.length = table.arity →
      ((∃ row ∈ rows, row.satisfiedBy assignment = true) ↔
        Row.ofBools assignment ∈ table.rows)

theorem IsExpressedBy.isImplicant
    (h : table.IsExpressedBy rows)
    {row : Row}
    (hRow : row ∈ rows) :
    row.IsImplicant
      (fun assignment =>
        Row.ofBools assignment ∈ table.rows)
      table.arity where
  arity_eq := h.arity_eq row hRow
  holds := by
    intro assignment hSat
    have hLength := Row.length_eq_of_satisfiedBy hSat
    rw [h.arity_eq row hRow] at hLength
    exact (h.holds_iff assignment hLength).1
      ⟨row, hRow, hSat⟩

/- Extended to primes the rows are a cover, and no more. -/
theorem IsExpressedBy.exists_isCoverOf
    (h : table.IsExpressedBy rows)
    (hFull :
      ∀ row ∈ table.rows, row.isAssignment = true)
    {primes : RowSet}
    (hReduce : table.reduce config = .ok primes)
    {chart : Chart}
    (hChart : chart.IsChartOf primes) :
    ∃ others : RowSet, chart.IsCoverOf table others ∧
      others.size ≤ rows.size := by
  have hExtend :
      ∀ row : Row, ∃ prime : Row, row ∈ rows →
        prime ∈ primes ∧ row.Within prime := by
    intro row
    by_cases hRow : row ∈ rows
    · rcases Row.exists_isPrimeImplicant_of_isImplicant
          (h.isImplicant hRow) with
        ⟨prime, hPrime, hWithin⟩
      exact ⟨prime, fun _ =>
        ⟨(mem_reduce_iff_isPrimeImplicant hFull hReduce).2
          hPrime, hWithin⟩⟩
    · exact ⟨row, fun hMem => absurd hMem hRow⟩
  choose extend hExtend using hExtend
  refine ⟨OrderedSet.ofList (rows.toList.map extend),
    ⟨fun prime hPrime => ?_, fun assignment hHolds => ?_⟩,
    ?_⟩
  · rw [OrderedSet.mem_ofList_iff, List.mem_map] at hPrime
    rcases hPrime with ⟨row, hRow, rfl⟩
    exact hChart.mem_implicants_iff.2 (hExtend row hRow).1
  · have hListed := (holds_iff_ofBools_mem hFull).1 hHolds
    rcases (h.holds_iff assignment
        (length_eq_of_holds hHolds)).2 hListed with
      ⟨row, hRow, hSat⟩
    refine ⟨extend row, ?_,
      (hExtend row hRow).2 assignment hSat⟩
    rw [OrderedSet.mem_ofList_iff]
    exact List.mem_map_of_mem hRow
  · have hSize :=
      OrderedSet.size_ofList_le (rows.toList.map extend)
    rw [List.length_map] at hSize
    exact hSize

/-
  After at most two greedy picks no sum of products for the
  function has fewer products than the result.
-/
theorem size_implicants_le_of_length_greedy_le_two
    (hFull :
      ∀ row ∈ table.rows, row.isAssignment = true)
    (h : table.minimize config = .ok result)
    (hShort : result.cover.greedy.length ≤ 2)
    (hRows : table.IsExpressedBy rows) :
    result.implicants.size ≤ rows.size := by
  rcases exists_chart_of_minimize_eq_ok h with
    ⟨hReduce, chart, hChart, hCover⟩
  have hIsChart := Chart.isChartOf_of_ofPrimes hChart
  rcases hRows.exists_isCoverOf hFull hReduce hIsChart with
    ⟨others, hOthers, hSize⟩
  rcases hIsChart.exists_rest_of_isCoverOf hCover hOthers
    with ⟨rest, hRest, hCovers, hCard⟩
  have hPicks :
      result.cover.greedy.length ≤ rest.card :=
    (hIsChart.greedySelection_of_cover_eq_ok
      hCover).length_le_card_of_length_le_two hShort hRest
        hCovers
  calc
    result.implicants.size = result.cover.size :=
      (hIsChart.size_eq_size_implicants hCover).symm
    _ = result.cover.greedy.length +
          result.cover.essential.size := Nat.add_comm _ _
    _ ≤ rest.card + result.cover.essential.size :=
      Nat.add_le_add_right hPicks _
    _ = others.size := hCard
    _ ≤ rows.size := hSize

end Minimality

/- No expression of the seven minterms needs fewer products. -/
theorem size_implicants_sevenMinterms_le :
    (∀ row ∈ sevenMinterms.rows, row.isAssignment = true) ∧
      sevenMinterms.IsExpressedBy sevenAlternative ∧
      ∃ result, sevenMinterms.minimize {} = .ok result ∧
        result.cover.greedy.length ≤ 2 ∧
        result.implicants.size ≤ sevenAlternative.size := by
  have hFull :
      ∀ row ∈ sevenMinterms.rows,
        row.isAssignment = true := by
    decide +kernel
  have hArity :
      ∀ row ∈ sevenAlternative,
        row.arity = sevenMinterms.arity := by
    decide +kernel
  have hHolds :
      ∀ assignment ∈ allAssignments sevenMinterms.arity,
        (∃ row ∈ sevenAlternative.toList,
            row.satisfiedBy assignment = true) ↔
          Row.ofBools assignment ∈ sevenMinterms.rows := by
    decide +kernel
  have hRows :
      sevenMinterms.IsExpressedBy sevenAlternative :=
    ⟨hArity, fun assignment hLength =>
      hHolds assignment (mem_allAssignments_iff.2 hLength)⟩
  have hOk :
      (sevenMinterms.minimize {}).map
          (fun result => result.cover.greedy.length) =
        .ok 2 := by
    decide +kernel
  rcases map_eq_ok_iff.1 hOk with ⟨result, hResult, hPicks⟩
  have hShort : result.cover.greedy.length ≤ 2 :=
    Nat.le_of_eq hPicks
  exact ⟨hFull, hRows, result, hResult, hShort,
    size_implicants_le_of_length_greedy_le_two hFull hResult
      hShort hRows⟩

end Table

end TwoLevel
