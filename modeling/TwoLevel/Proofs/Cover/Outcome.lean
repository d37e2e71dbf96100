import TwoLevel.Proofs.Cover.Selection

/-
  This file settles what comes of covering a table from a
  chart, where neither need have to do with the other. Either
  the arities differ, or the least assignment is reported that
  the table has and no implicant has, or there is a cover.

  Key definitions include:
    * `Row.binaryText`
    * `Table.Uncovered`
    * `Table.IsLeastUncovered`
    * `Chart.GuardsHold`

  Main theorems:
    * `guardsHold`
    * `cover_outcome`
-/

namespace TwoLevel

/- The binary digits of an index, the highest first. -/
def Row.binaryText
    (index arity : Nat) : String :=
  String.ofList
    ((bitsOfIndex index arity).map
      (fun bit => if bit then '1' else '0'))

theorem Row.toText_ofIndex
    (index arity : Nat) :
    (ofIndex index arity).toText =
      binaryText index arity := by
  rw [toText, binaryText, toChars, ofIndex, ofBools,
    List.map_map]
  congr 1
  apply List.map_congr_left
  intro bit _
  cases bit with
  | false => rfl
  | true => rfl

private theorem least_of_find?_eq_some
    {xs : List Nat}
    {p : Nat → Bool}
    {i : Nat}
    (hAscending : xs.Pairwise (· < ·))
    (hFind : xs.find? p = some i) :
    i ∈ xs ∧ p i = true ∧
      ∀ j ∈ xs, j < i → p j = false := by
  rcases List.find?_eq_some_iff_append.1 hFind with
    ⟨hi, before, after, rfl, hBefore⟩
  refine ⟨by simp, hi, fun j hj hLt => ?_⟩
  rcases List.mem_append.1 hj with hj | hj
  · have hNot := hBefore j hj
    rw [Bool.not_eq_true'] at hNot
    exact hNot
  · have hAfter := (List.pairwise_append.1 hAscending).2.1
    rcases List.mem_cons.1 hj with rfl | hj
    · exact absurd hLt (Nat.lt_irrefl j)
    · have hGt := (List.pairwise_cons.1 hAfter).1 j hj
      exact absurd hLt (Nat.lt_asymm hGt)

namespace Table

/- The table holds on an assignment, and no row of a set. -/
def Uncovered
    (table : Table)
    (primes : RowSet)
    (assignment : List Bool) : Prop :=
  table.Holds assignment ∧
    ∀ row ∈ primes, row.satisfiedBy assignment = false

/- The least number of an assignment without cover. -/
structure IsLeastUncovered
    (table : Table)
    (primes : RowSet)
    (index : Nat) : Prop where
  index_lt : index < assignmentCount table.arity
  uncovered :
    table.Uncovered primes
      (Row.bitsOfIndex index table.arity)
  least :
    ∀ other < index,
      ¬ table.Uncovered primes
        (Row.bitsOfIndex other table.arity)

end Table

namespace Chart

section Outcome

variable {primes : RowSet}
variable {chart : Chart}
variable {table : Table}
variable {live : BitSet}

------------------------------------------------------------
-- Columns without Cover
------------------------------------------------------------

theorem IsChartOf.not_covers_iff
    (h : chart.IsChartOf primes)
    (hArity : chart.arity = table.arity)
    {column : Nat}
    (hColumn : column ∈ table.mintermSet) :
    (!chart.covers column) = true ↔
      table.Uncovered primes
        (Row.bitsOfIndex column table.arity) := by
  rcases Table.mem_mintermSet_iff_holds.1 hColumn with
    ⟨hLt, hHolds⟩
  rw [Bool.not_eq_true', ← Bool.not_eq_true, h.covers_iff,
    hArity]
  constructor
  · intro hNone
    refine ⟨hHolds, fun row hRow => ?_⟩
    rw [← Bool.not_eq_true]
    intro hSat
    exact hNone ⟨hLt, row, hRow, hSat⟩
  · intro hUncovered hCovered
    rcases hCovered with ⟨_, row, hRow, hSat⟩
    rw [hUncovered.2 row hRow] at hSat
    cases hSat

theorem IsChartOf.isLeastUncovered_of_find?_eq_some
    (h : chart.IsChartOf primes)
    (hArity : chart.arity = table.arity)
    (hLive :
      ∀ column, live.contains column = true ↔
        column ∈ table.mintermSet)
    {column : Nat}
    (hFind :
      live.toList.find? (fun i => !chart.covers i) =
        some column) :
    table.IsLeastUncovered primes column := by
  rcases least_of_find?_eq_some
      (BitSet.toList_ascending live) hFind with
    ⟨hMem, hUncovered, hLeast⟩
  have hColumn : column ∈ table.mintermSet :=
    (hLive column).1 (BitSet.mem_toList_iff.1 hMem)
  have hLt := (Table.mem_mintermSet_iff_holds.1 hColumn).1
  refine ⟨hLt,
    (h.not_covers_iff hArity hColumn).1 hUncovered, ?_⟩
  intro other hOther hBad
  have hMinterm : other ∈ table.mintermSet :=
    Table.mem_mintermSet_iff_holds.2
      ⟨Nat.lt_trans hOther hLt, hBad.1⟩
  have hCovered :=
    hLeast other
      (BitSet.mem_toList_iff.2 ((hLive other).2 hMinterm))
      hOther
  rw [(h.not_covers_iff hArity hMinterm).2 hBad] at hCovered
  cases hCovered

theorem IsChartOf.not_uncovered_of_find?_eq_none
    (h : chart.IsChartOf primes)
    (hArity : chart.arity = table.arity)
    (hLive :
      ∀ column, live.contains column = true ↔
        column ∈ table.mintermSet)
    (hFind :
      live.toList.find? (fun i => !chart.covers i) = none)
    {assignment : List Bool} :
    ¬ table.Uncovered primes assignment := by
  intro hUncovered
  rcases Row.exists_bitsOfIndex_eq assignment with
    ⟨column, hLt, hBits⟩
  rw [Table.length_eq_of_holds hUncovered.1] at hLt hBits
  have hColumn : column ∈ table.mintermSet := by
    rw [Table.mem_mintermSet_iff_holds, hBits]
    exact ⟨hLt, hUncovered.1⟩
  rw [← hBits] at hUncovered
  exact List.find?_eq_none.1 hFind column
    (BitSet.mem_toList_iff.2 ((hLive column).2 hColumn))
    ((h.not_covers_iff hArity hColumn).2 hUncovered)

------------------------------------------------------------
-- The Outcome
------------------------------------------------------------

/-
  The checks inside the selection that no table fails: the
  chart has columns, the live columns are in range, and the
  greedy stage ends once every live column has some line.
-/
structure GuardsHold
    (chart : Chart)
    (table : Table) : Prop where
  arity_ne_zero : chart.arity ≠ 0
  width_ne_zero : chart.width ≠ 0
  live_in_range :
    chart.arity = table.arity →
      ∃ minterms live, table.minterms = .ok minterms ∧
        chart.liveColumns minterms.toList = .ok live
  greedy_ends :
    ∀ live : BitSet,
      live.toList.find? (fun i => !chart.covers i) = none →
        ∃ picks,
          takeGreedy chart.arity
              (takeEssential live.toList
                { live, candidates := chart.lines }).2 =
            .ok picks

theorem IsChartOf.guardsHold
    (h : chart.IsChartOf primes)
    (table : Table) :
    chart.GuardsHold table where
  arity_ne_zero := Nat.ne_of_gt h.arity_pos
  width_ne_zero := h.width_ne_zero
  live_in_range := by
    intro hArity
    rcases h.exists_liveColumns_eq_ok hArity with
      ⟨live, hLive, _⟩
    exact ⟨table.mintermSet, live,
      Table.minterms_eq_ok (hArity ▸ h.arity_le), hLive⟩
  greedy_ends := by
    intro live hCovered
    exact h.exists_takeGreedy_eq_ok hCovered

theorem IsChartOf.cover_eq_error_of_uncovered
    (h : chart.IsChartOf primes)
    (hArity : chart.arity = table.arity)
    {assignment : List Bool}
    (hUncovered : table.Uncovered primes assignment) :
    ∃ index, table.IsLeastUncovered primes index ∧
      chart.cover table =
        .error (.malformed
          (.uncoverable
            (Row.binaryText index table.arity))) := by
  rcases h.exists_liveColumns_eq_ok hArity with
    ⟨live, hLive, hMem⟩
  cases hFind :
      live.toList.find? (fun i => !chart.covers i) with
  | none =>
      exact absurd hUncovered
        (h.not_uncovered_of_find?_eq_none hArity hMem hFind)
  | some column =>
      refine ⟨column,
        h.isLeastUncovered_of_find?_eq_some hArity hMem hFind,
        ?_⟩
      rw [Chart.cover, h.select_of_arity_eq hArity hLive,
        hFind]
      show Except.error _ = _
      rw [Chart.assignment, hArity, Row.toText_ofIndex]

theorem IsChartOf.exists_cover_eq_ok
    (h : chart.IsChartOf primes)
    (hArity : chart.arity = table.arity)
    (hCovered :
      ∀ assignment, ¬ table.Uncovered primes assignment) :
    ∃ cover, chart.cover table = .ok cover := by
  rcases h.exists_liveColumns_eq_ok hArity with
    ⟨live, hLive, hMem⟩
  cases hFind :
      live.toList.find? (fun i => !chart.covers i) with
  | some column =>
      have hLeast :=
        h.isLeastUncovered_of_find?_eq_some hArity hMem hFind
      exact absurd hLeast.uncovered (hCovered _)
  | none =>
      rcases h.exists_takeGreedy_eq_ok hFind with
        ⟨picks, hPicks⟩
      rw [Chart.cover, h.select_of_arity_eq hArity hLive,
        hFind]
      dsimp only
      rw [hPicks]
      exact ⟨_, rfl⟩

end Outcome

/-
  The outcome of covering a table from a chart of implicants.
  The three conditions exclude one another and leave no case
  out, so no other failure comes of it.
-/
theorem cover_outcome
    {primes : RowSet}
    {chart : Chart}
    (hChart : Chart.ofPrimes primes = .ok chart)
    (table : Table) :
    (chart.arity ≠ table.arity →
      chart.cover table =
        .error (.malformed
          (.chartMismatch chart.arity table.arity))) ∧
    (chart.arity = table.arity →
      (∃ assignment, table.Uncovered primes assignment) →
        ∃ index, table.IsLeastUncovered primes index ∧
          chart.cover table =
            .error (.malformed
              (.uncoverable
                (Row.binaryText index table.arity)))) ∧
    (chart.arity = table.arity →
      (∀ assignment, ¬ table.Uncovered primes assignment) →
        ∃ cover, chart.cover table = .ok cover ∧
          (∀ row ∈ cover.implicants, row ∈ primes) ∧
          ∀ assignment, table.Holds assignment →
            ∃ row ∈ cover.implicants,
              row.satisfiedBy assignment = true) ∧
    chart.GuardsHold table := by
  have h := isChartOf_of_ofPrimes hChart
  refine ⟨fun hArity => ?_, fun hArity hUncovered => ?_,
    fun hArity hCovered => ?_, h.guardsHold table⟩
  · rw [Chart.cover, h.select_of_arity_ne hArity]
    rfl
  · rcases hUncovered with ⟨assignment, hUncovered⟩
    exact h.cover_eq_error_of_uncovered hArity hUncovered
  · rcases h.exists_cover_eq_ok hArity hCovered with
      ⟨cover, hCover⟩
    exact ⟨cover, hCover, h.covers_of_cover_eq_ok hCover⟩

/- The prime implicants of `x1 | x2`. -/
def disjunction : RowSet :=
  OrderedSet.ofList
    [⟨[.one, .dontCare]⟩, ⟨[.dontCare, .one]⟩]

/- The table of one row over at least one variable. -/
def tableOfRow
    (value : Value)
    (values : List Value) : Table where
  arity := values.length + 1
  rows := OrderedSet.ofList [⟨value :: values⟩]
  arity_pos := Nat.succ_pos values.length
  row_arity := by simp [Row.arity]

/-
  The chart of `x1 | x2` refuses a table over three variables,
  lacks an assignment of `!x2`, and covers `x1`.
-/
theorem cover_outcome_disjunction :
    ∃ chart, Chart.ofPrimes disjunction = .ok chart ∧
      chart.cover (tableOfRow .one [.dontCare, .zero]) =
        .error (.malformed (.chartMismatch 2 3)) ∧
      (∃ index,
        (tableOfRow .dontCare [.zero]).IsLeastUncovered
          disjunction index ∧
        chart.cover (tableOfRow .dontCare [.zero]) =
          .error (.malformed
            (.uncoverable (Row.binaryText index 2)))) ∧
      ∃ cover,
        chart.cover (tableOfRow .one [.dontCare]) =
          .ok cover ∧
        (∀ row ∈ cover.implicants, row ∈ disjunction) ∧
        ∀ assignment,
          (tableOfRow .one [.dontCare]).Holds assignment →
            ∃ row ∈ cover.implicants,
              row.satisfiedBy assignment = true := by
  have hOk :
      (Chart.ofPrimes disjunction).map Chart.arity =
        .ok 2 := by
    decide +kernel
  rcases map_eq_ok_iff.1 hOk with ⟨chart, hChart, hArity⟩
  refine ⟨chart, hChart, ?_, ?_, ?_⟩
  · have hMismatch :=
      (cover_outcome hChart
        (tableOfRow .one [.dontCare, .zero])).1
    rw [hArity] at hMismatch
    exact hMismatch (Nat.ne_of_lt (Nat.lt_succ_self 2))
  · apply (cover_outcome hChart
      (tableOfRow .dontCare [.zero])).2.1 hArity
    refine ⟨[false, false],
      ⟨⟨[.dontCare, .zero]⟩, ?_, rfl⟩, ?_⟩
    · exact OrderedSet.mem_ofList_iff.2 List.mem_cons_self
    · decide +kernel
  · apply (cover_outcome hChart
      (tableOfRow .one [.dontCare])).2.2.1 hArity
    intro assignment hUncovered
    rcases hUncovered with ⟨⟨row, hRow, hSat⟩, hNone⟩
    have hAll :
        ∀ row ∈ (tableOfRow .one [.dontCare]).rows,
          row ∈ disjunction := by
      decide +kernel
    rw [hNone row (hAll row hRow)] at hSat
    cases hSat

end Chart

end TwoLevel
