import TwoLevel.Proofs.Chart.Building
import TwoLevel.Proofs.Cover.Counts
import TwoLevel.Proofs.Minimization.Exactness
import TwoLevel.Proofs.Row.WordCursor

/-
  This file settles what comes of minimizing a table. A table
  without rows is refused, and so is one with more variables
  than a word can number. Every other table has a result.

  The phases check their inputs anew, and here is why no later
  check fails. The primes are at least one and have the arity
  of the table, so they have a chart. They hold wherever the
  table does, so the chart covers the table.

  Key definitions include:
    * `Row.FitsWord`
    * `Residue.InRange`
    * `Table.StepsInRange`

  Main theorems:
    * `Residue.inRange_of_turns`
    * `minimize_eq_ok`
    * `exists_minimize_eq_ok`
    * `stepsInRange`
    * `minimize_outcome`
-/

namespace TwoLevel

------------------------------------------------------------
-- Numbers of a Row
------------------------------------------------------------

namespace Row

/-
  What numbering the assignments of a row by words of 64
  digits asks for. The word of all digits, shifted by those
  that no variable has, is left with those of the variables.
  Without variables there is nothing to shift. Each variable
  has a digit of the word, and neither the count nor the masks
  are too large.
-/
structure FitsWord
    (row : Row) : Prop where
  arity_le : row.arity ≤ 64
  shift_lt : row.arity ≠ 0 → 64 - row.arity < 64
  digits_left :
    (allDigits row.arity).toNat =
      assignmentCount row.arity - 1
  digit_lt :
    ∀ position < row.arity, row.arity - 1 - position < 64
  count_lt : assignmentCount row.arity < assignmentCount 64
  care_lt : row.masks.care < assignmentCount row.arity
  value_lt : row.masks.value < assignmentCount row.arity

theorem fitsWord_of_arity_lt
    {row : Row}
    (h : row.arity < 64) :
    row.FitsWord where
  arity_le := Nat.le_of_lt h
  shift_lt := by
    intro hNe
    omega
  digits_left := toNat_allDigits (Nat.le_of_lt h)
  digit_lt := by
    intro position hPosition
    omega
  count_lt := Nat.pow_lt_pow_right Nat.one_lt_two h
  care_lt := row.masks_lt.1
  value_lt := row.masks_lt.2

end Row

------------------------------------------------------------
-- Positions of a Round
------------------------------------------------------------

theorem lt_of_mem_pairings
    {rows : List Row}
    {pairing : Pairing}
    (h : pairing ∈ pairings rows) :
    pairing.left < pairing.right ∧
      pairing.right < rows.length := by
  rcases mem_pairings_iff.1 h with ⟨a, b, hLt, _, hb, _⟩
  exact ⟨hLt, (List.getElem?_eq_some_iff.1 hb).1⟩

/- There is one flag for each row that is compared. -/
theorem Round.length_used
    (config : Config)
    (working : List Row) :
    (ofRows config working).scan.used.length =
      working.length := by
  rw [scan_ofRows, Scan.exhaustive, List.length_map]

------------------------------------------------------------
-- Places in the Chart
------------------------------------------------------------

/-
  What the selection looks up while a residue is left. Each
  candidate has a place in the chart, and each column has its
  word in the live set and in the set of a candidate.
-/
structure Residue.InRange
    (chart : Chart)
    (residue : Residue) : Prop where
  place_lt :
    ∀ line ∈ residue.candidates,
      ∃ k < chart.lines.length, chart.lines[k]? = some line
  live_word_lt :
    ∀ column < chart.width,
      column / 64 < residue.live.words.size
  line_word_lt :
    ∀ line ∈ residue.candidates, ∀ column < chart.width,
      column / 64 < line.columns.words.size

/- The live columns are a set as wide as the chart. -/
theorem Chart.width_of_liveColumns_eq_ok
    {chart : Chart}
    {indices : List Nat}
    {live : BitSet}
    (h : chart.liveColumns indices = .ok live) :
    live.width = chart.width := by
  rw [liveColumns] at h
  cases hSet : BitSet.ofList chart.width indices with
  | error fault =>
      rw [hSet] at h
      cases h
  | ok set =>
      rw [hSet] at h
      cases h
      exact BitSet.width_of_ofList_eq_ok hSet

/-
  By induction on the turns. The candidates stay lines of the
  chart, and the live set keeps its width.
-/
theorem Residue.lines_and_width_of_turns
    {initial residue : Residue}
    (hTurns : Relation.ReflTransGen Turn initial residue) :
    (∀ line ∈ residue.candidates,
      line ∈ initial.candidates) ∧
      residue.live.width = initial.live.width := by
  induction hTurns with
  | refl => exact ⟨fun _ hLine => hLine, rfl⟩
  | tail _ hTurn ih =>
      exact ⟨fun line hLine =>
          ih.1 line (hTurn.mem_candidates hLine),
        hTurn.width_live.trans ih.2⟩

/- Whatever turns are made, no place is missing. -/
theorem Residue.inRange_of_turns
    {primes : RowSet}
    {chart : Chart}
    (h : chart.IsChartOf primes)
    {live : BitSet}
    (hWidth : live.width = chart.width)
    {residue : Residue}
    (hTurns :
      Relation.ReflTransGen Turn (chart.initial live)
        residue) :
    residue.InRange chart := by
  rcases lines_and_width_of_turns hTurns with
    ⟨hLines, hLive⟩
  refine
    { place_lt := ?_
      live_word_lt := ?_
      line_word_lt := ?_ }
  · intro line hLine
    rcases List.mem_iff_getElem?.1 (hLines line hLine) with
      ⟨k, hk⟩
    exact ⟨k, (List.getElem?_eq_some_iff.1 hk).1, hk⟩
  · intro column hColumn
    have hSame : residue.live.width = chart.width :=
      hLive.trans hWidth
    apply BitSet.div_lt_size_words
    rw [hSame]
    exact hColumn
  · intro line hLine column hColumn
    apply BitSet.div_lt_size_words
    rw [(h.isLine line (hLines line hLine)).width_eq,
      ← h.width_eq]
    exact hColumn

namespace Table

section Outcome

variable {config : Config}
variable {table : Table}
variable {primes : RowSet}

------------------------------------------------------------
-- The Primes of a Table
------------------------------------------------------------

/- The primes leave no assignment of the table uncovered. -/
theorem not_uncovered_of_reduce
    (h : table.reduce config = .ok primes)
    (assignment : List Bool) :
    ¬ table.Uncovered primes assignment := by
  intro hUncovered
  rcases hUncovered with ⟨hHolds, hNone⟩
  rcases (holds_iff_exists_prime h assignment).1 hHolds with
    ⟨prime, hPrime, hSat⟩
  rw [hNone prime hPrime] at hSat
  cases hSat

------------------------------------------------------------
-- Failure and Success
------------------------------------------------------------

theorem minimize_eq_error_of_isEmpty
    (config : Config)
    (h : table.isEmpty = true) :
    table.minimize config =
      .error (.emptyInput "evaluation table") := by
  rw [minimize, reduce, reduction, if_pos h]
  rfl

theorem minimize_eq_error_of_lt
    (config : Config)
    (hRows : table.isEmpty = false)
    (hLt : maxEnumerable < table.arity) :
    table.minimize config =
      .error (.malformed (.arityTooLarge table.arity)) := by
  have hReduce := reduce_eq_ok config hRows
  have hChart :=
    Chart.ofPrimes_eq_error_of_lt
      (isEmpty_eq_false_of_reduce hReduce)
      (fun prime hPrime =>
        arity_of_mem_reduce hReduce hPrime) hLt
  rw [minimize, hReduce]
  show Except.bind (Chart.ofPrimes _) _ = _
  rw [hChart]
  rfl

/- A result is put together from those of the phases. -/
theorem minimize_eq_ok
    {chart : Chart}
    {cover : Cover}
    (hReduce : table.reduce config = .ok primes)
    (hChart : Chart.ofPrimes primes = .ok chart)
    (hCover : chart.cover table = .ok cover) :
    table.minimize config =
      .ok { arity := table.arity, primes, cover } := by
  apply bind_eq_ok_iff.2
  refine ⟨primes, hReduce, ?_⟩
  apply bind_eq_ok_iff.2
  refine ⟨chart, hChart, ?_⟩
  apply bind_eq_ok_iff.2
  exact ⟨cover, hCover, rfl⟩

theorem exists_minimize_eq_ok
    (config : Config)
    (hRows : table.isEmpty = false)
    (hLe : table.arity ≤ maxEnumerable) :
    ∃ result, table.minimize config = .ok result := by
  have hReduce := reduce_eq_ok config hRows
  rcases Chart.exists_ofPrimes_eq_ok
      (isEmpty_eq_false_of_reduce hReduce)
      (fun prime hPrime =>
        arity_of_mem_reduce hReduce hPrime)
      table.arity_pos hLe with
    ⟨chart, hChart, hArity⟩
  rcases (Chart.isChartOf_of_ofPrimes
      hChart).exists_cover_eq_ok hArity
      (not_uncovered_of_reduce hReduce) with
    ⟨cover, hCover⟩
  exact ⟨_, minimize_eq_ok hReduce hChart hCover⟩

------------------------------------------------------------
-- Positions, Digits and Columns
------------------------------------------------------------

/-
  The positions, digits and columns that minimizing a table
  looks at exist. A merge marks two flags among those of its
  round. The rows that are numbered fit a word. No column of a
  prime or of the table is beyond the chart, and no check
  inside the selection fails.

  Whatever turns the selection has made, the lines that it may
  still select have their places in the chart, and the columns
  that it looks up have their words, as any index below the
  width of a set has. The digit within a word is a remainder
  by 64.
-/
structure StepsInRange
    (config : Config)
    (table : Table) : Prop where
  positions_lt :
    ∀ round ∈ rounds config table.rows.toList,
      ∀ pairing ∈ pairings round.working,
        pairing.left < pairing.right ∧
          pairing.right < round.working.length
  flags_length :
    ∀ round ∈ rounds config table.rows.toList,
      round.scan.used.length = round.working.length
  rows_fit :
    table.arity < 64 → ∀ row ∈ table.rows, row.FitsWord
  primes_fit :
    table.arity < 64 →
      ∀ primes, table.reduce config = .ok primes →
        ∀ prime ∈ primes, prime.FitsWord
  columns_in_range :
    ∀ primes, table.reduce config = .ok primes →
      ∀ prime ∈ primes, ∃ columns,
        Chart.columnsOf table.arity prime = .ok columns
  guards_hold :
    ∀ primes chart, table.reduce config = .ok primes →
      Chart.ofPrimes primes = .ok chart →
        chart.GuardsHold table
  residues_in_range :
    ∀ primes chart minterms live residue,
      table.reduce config = .ok primes →
      Chart.ofPrimes primes = .ok chart →
      table.minterms = .ok minterms →
      chart.liveColumns minterms.toList = .ok live →
      Relation.ReflTransGen Residue.Turn
          (chart.initial live) residue →
        residue.InRange chart

theorem stepsInRange
    (config : Config)
    (table : Table) :
    table.StepsInRange config where
  positions_lt := by
    intro round _ pairing hPairing
    exact lt_of_mem_pairings hPairing
  flags_length := by
    intro round hRound
    rw [eq_ofRows_of_mem_rounds hRound,
      Round.length_used, Round.working_ofRows]
  rows_fit := by
    intro hLt row hRow
    apply Row.fitsWord_of_arity_lt
    rw [table.row_arity row hRow]
    exact hLt
  primes_fit := by
    intro hLt primes hReduce prime hPrime
    apply Row.fitsWord_of_arity_lt
    rw [arity_of_mem_reduce hReduce hPrime]
    exact hLt
  columns_in_range := by
    intro primes _ prime _
    rcases Chart.columnsOf_eq_ok table.arity prime with
      ⟨columns, hColumns, _⟩
    exact ⟨columns, hColumns⟩
  guards_hold := by
    intro primes chart _ hChart
    exact (Chart.isChartOf_of_ofPrimes hChart).guardsHold
      table
  residues_in_range := by
    intro primes chart minterms live residue _ hChart _ hLive
      hTurns
    exact Residue.inRange_of_turns
      (Chart.isChartOf_of_ofPrimes hChart)
      (Chart.width_of_liveColumns_eq_ok hLive) hTurns

end Outcome

/-
  The outcome of minimizing a table. The three conditions
  exclude one another and leave no case out, so no other
  failure comes of it.
-/
theorem minimize_outcome
    (config : Config)
    (table : Table) :
    (table.isEmpty = true →
      table.minimize config =
        .error (.emptyInput "evaluation table")) ∧
    (table.isEmpty = false → 64 ≤ table.arity →
      table.minimize config =
        .error (.malformed (.arityTooLarge table.arity))) ∧
    (table.isEmpty = false → table.arity < 64 →
      ∃ result, table.minimize config = .ok result) ∧
    table.StepsInRange config := by
  refine ⟨fun hRows => ?_, fun hRows hLarge => ?_,
    fun hRows hSmall => ?_, stepsInRange config table⟩
  · exact minimize_eq_error_of_isEmpty config hRows
  · exact minimize_eq_error_of_lt config hRows hLarge
  · exact exists_minimize_eq_ok config hRows
      (Nat.le_of_lt_succ hSmall)

/- The table of one variable that holds nowhere. -/
def contradiction : Table where
  arity := 1
  rows := ∅
  arity_pos := Nat.one_pos
  row_arity := by decide

/-
  Nothing is refused as empty, a row of 64 variables as too
  long, and overlapping rows have a result.
-/
theorem minimize_outcome_samples :
    contradiction.minimize {} =
        .error (.emptyInput "evaluation table") ∧
      (Chart.tableOfRow .one
          (List.replicate 63 .one)).minimize {} =
        .error (.malformed (.arityTooLarge 64)) ∧
      ∃ result, overlapping.minimize {} = .ok result := by
  refine ⟨?_, ?_, ?_⟩
  · exact (minimize_outcome {} contradiction).1 rfl
  · exact (minimize_outcome {} _).2.1
      (by decide +kernel) (by decide +kernel)
  · exact (minimize_outcome {} overlapping).2.2.1
      (by decide +kernel) (by decide +kernel)

end Table

end TwoLevel
