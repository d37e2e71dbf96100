import Mathlib.Data.List.Find
import TwoLevel.Proofs.Chart.Building
import TwoLevel.Proofs.Cover.GreedyStage

/-
  This file shows that implicants which hold nowhere on the
  table have no influence on a selection. A selection sees of
  a residue just what pruning leaves of it, in either stage.
  So two charts that are the same once pruned by the table run
  in step, although the positions of their lines differ.

  Key definitions include:
    * `Row.IsRelevantTo`

  Main theorems:
    * `prune_take_congr`
    * `takeEssential_congr`
    * `takeGreedy_congr`
    * `prune_initial_eq`
    * `cover_eq_of_irrelevant`
-/

namespace TwoLevel

------------------------------------------------------------
-- What a Selection Sees of a Residue
------------------------------------------------------------

section Pruning

variable {left right : Residue}

namespace Residue

theorem live_eq_of_prune_eq
    (h : left.prune = right.prune) :
    left.live = right.live := by
  have hLive : left.prune.live = right.prune.live :=
    congrArg Residue.live h
  exact hLive

/- A live column has its satisfiers among what is kept. -/
theorem soleSatisfier?_congr
    (h : left.prune = right.prune)
    {column : Nat}
    (hLive : left.live.contains column = true) :
    soleSatisfier? left.candidates column =
      soleSatisfier? right.candidates column := by
  have hLiveRight : right.live.contains column = true :=
    live_eq_of_prune_eq h ▸ hLive
  have hLeft :=
    soleSatisfier?_of_leaves
      (leaves_prune (leaves_refl left)) hLive
  have hRight :=
    soleSatisfier?_of_leaves
      (leaves_prune (leaves_refl right)) hLiveRight
  rw [← hLeft, h, hRight]

/- What gains after a selection gained before it. -/
theorem gain_pos_of_take
    {residue : Residue}
    {line other : Chart.Line}
    (h : 0 < gain (residue.take line).live other) :
    0 < gain residue.live other := by
  rcases gain_pos_iff.1 h with ⟨column, hLive, hContains⟩
  exact gain_pos_iff.2
    ⟨column, (contains_live_take_iff.1 hLive).1, hContains⟩

theorem live_prune_take
    (residue : Residue)
    (line : Chart.Line) :
    (residue.prune.take line).live =
      (residue.take line).live :=
  rfl

theorem candidates_take_prune
    (residue : Residue)
    (line : Chart.Line) :
    (residue.take line).prune.candidates =
      residue.candidates.filter
        (fun other =>
          decide (0 < gain (residue.take line).live other) &&
            (other.row != line.row)) :=
  List.filter_filter

/- Pruning before a selection makes no difference after it. -/
theorem prune_take_prune
    (residue : Residue)
    (line : Chart.Line) :
    (residue.prune.take line).prune =
      (residue.take line).prune := by
  have hCandidates :
      (residue.prune.take line).prune.candidates =
        (residue.take line).prune.candidates := by
    rw [candidates_take_prune, candidates_take_prune,
      live_prune_take]
    show (residue.candidates.filter _).filter _ = _
    rw [List.filter_filter]
    apply List.filter_congr
    intro other _
    by_cases hGain : 0 < gain (residue.take line).live other
    · simp [gain_pos_of_take hGain]
    · simp [hGain]
  exact (Residue.mk.injEq ..).mpr ⟨rfl, hCandidates⟩

theorem prune_take_congr
    (h : left.prune = right.prune)
    (line : Chart.Line) :
    (left.take line).prune = (right.take line).prune := by
  rw [← prune_take_prune left, h, prune_take_prune]

end Residue

/- The first stage finds the same rows in both residues. -/
theorem takeEssential_congr
    (columns : List Nat)
    (h : left.prune = right.prune) :
    (takeEssential columns left).1 =
        (takeEssential columns right).1 ∧
      (takeEssential columns left).2.prune =
        (takeEssential columns right).2.prune := by
  induction columns generalizing left right with
  | nil => exact ⟨rfl, h⟩
  | cons column columns ih =>
      have hLive := Residue.live_eq_of_prune_eq h
      unfold takeEssential
      rw [← hLive]
      by_cases hColumn : left.live.contains column = true
      · have hSole := Residue.soleSatisfier?_congr h hColumn
        rw [if_pos hColumn, if_pos hColumn, ← hSole]
        cases soleSatisfier? left.candidates column with
        | none => exact ih h
        | some line =>
            rcases ih (Residue.prune_take_congr h line) with
              ⟨hRows, hLast⟩
            exact ⟨congrArg (line.row :: ·) hRows, hLast⟩
      · rw [if_neg hColumn, if_neg hColumn]
        exact ih h

/- The second stage prunes first, so it sees the same. -/
theorem takeGreedy_congr
    (arity : Nat)
    (h : left.prune = right.prune) :
    takeGreedy arity left = takeGreedy arity right := by
  have hLive := Residue.live_eq_of_prune_eq h
  cases hFirst : left.live.first? with
  | none =>
      rw [takeGreedy_of_dead hFirst,
        takeGreedy_of_dead (hLive ▸ hFirst)]
  | some column =>
      have hFirstRight : right.live.first? = some column :=
        hLive ▸ hFirst
      cases hBest :
          best? left.live left.prune.candidates with
      | none =>
          have hBestRight :
              best? right.live right.prune.candidates =
                none := by
            rw [← hLive, ← h, hBest]
          rw [takeGreedy_of_none hFirst hBest,
            takeGreedy_of_none hFirstRight hBestRight]
      | some best =>
          rcases best with ⟨line, gain⟩
          have hBestRight :
              best? right.live right.prune.candidates =
                some (line, gain) := by
            rw [← hLive, ← h, hBest]
          rw [takeGreedy_of_best hFirst hBest,
            takeGreedy_of_best hFirstRight hBestRight, h]

end Pruning

------------------------------------------------------------
-- Charts with the Same Relevant Implicants
------------------------------------------------------------

/- The row holds on some assignment of the table. -/
def Row.IsRelevantTo
    (row : Row)
    (table : Table) : Prop :=
  ∃ assignment, table.Holds assignment ∧
    row.satisfiedBy assignment = true

namespace Chart

section Lines

variable {arity : Nat}

/- A row marks its columns in one way only. -/
theorem IsLine.eq_of_row_eq
    {a b : Line}
    (ha : IsLine arity a)
    (hb : IsLine arity b)
    (hRow : a.row = b.row) :
    a = b := by
  have hColumns : a.columns = b.columns := by
    apply BitSet.ext_contains
      (ha.width_eq.trans hb.width_eq.symm)
    intro column
    rw [Bool.eq_iff_iff, ha.contains_iff, hb.contains_iff,
      hRow]
  cases a
  cases b
  simp_all

theorem eq_of_map_row_eq
    {xs ys : List Line}
    (hxs : ∀ line ∈ xs, IsLine arity line)
    (hys : ∀ line ∈ ys, IsLine arity line)
    (hRows : xs.map Line.row = ys.map Line.row) :
    xs = ys := by
  induction xs generalizing ys with
  | nil =>
      rw [List.map_nil] at hRows
      exact (List.map_eq_nil_iff.1 hRows.symm).symm
  | cons x xs ih =>
      cases ys with
      | nil => cases hRows
      | cons y ys =>
          rw [List.map_cons, List.map_cons,
            List.cons.injEq] at hRows
          rcases List.forall_mem_cons.1 hxs with ⟨hx, hxs⟩
          rcases List.forall_mem_cons.1 hys with ⟨hy, hys⟩
          rw [hx.eq_of_row_eq hy hRows.1,
            ih hxs hys hRows.2]

end Lines

section Relevance

variable {primes more : RowSet}
variable {chart small large : Chart}
variable {table : Table}
variable {live : BitSet}

/- Pruned by a table, a chart has the relevant implicants. -/
theorem IsChartOf.mem_rows_prune_iff
    (h : chart.IsChartOf primes)
    (hArity : chart.arity = table.arity)
    (hLive :
      ∀ column, live.contains column = true ↔
        column ∈ table.mintermSet)
    {row : Row} :
    row ∈ (chart.initial live).prune.candidates.map
        Line.row ↔
      row ∈ primes ∧ row.IsRelevantTo table := by
  constructor
  · intro hGiven
    rcases List.mem_map.1 hGiven with ⟨line, hKept, rfl⟩
    rcases List.mem_filter.1 hKept with ⟨hLine, hGain⟩
    rcases gain_pos_iff.1 (of_decide_eq_true hGain) with
      ⟨column, hColumn, hContains⟩
    have hMinterm :=
      Table.mem_mintermSet_iff_holds.1
        ((hLive column).1 hColumn)
    rw [← hArity] at hMinterm
    have hRow : line.row ∈ chart.implicants :=
      List.mem_map_of_mem hLine
    refine ⟨h.mem_implicants_iff.1 hRow,
      Row.bitsOfIndex column chart.arity, hMinterm.2, ?_⟩
    exact (h.contains_iff_satisfiedBy hLine hMinterm.1).1
      hContains
  · intro hGiven
    rcases hGiven with ⟨hRow, assignment, hHolds, hSat⟩
    rcases mem_implicants_iff_exists_line.1
        (h.mem_implicants_iff.2 hRow) with
      ⟨line, hLine, rfl⟩
    rcases Table.holds_iff_exists_minterm.1 hHolds with
      ⟨column, hColumn, rfl⟩
    have hLt :=
      (Table.mem_mintermSet_iff_holds.1 hColumn).1
    rw [← hArity] at hLt hSat
    refine List.mem_map.2
      ⟨line, List.mem_filter.2 ⟨hLine, ?_⟩, rfl⟩
    exact decide_eq_true (gain_pos_iff.2
      ⟨column, (hLive column).2 hColumn,
        (h.contains_iff_satisfiedBy hLine hLt).2 hSat⟩)

theorem IsChartOf.rows_prune_ascending
    (h : chart.IsChartOf primes)
    (live : BitSet) :
    Ascending.Sorted
      ((chart.initial live).prune.candidates.map
        Line.row) :=
  List.pairwise_map.2
    (h.candidates_ascending
      (Residue.leaves_prune
        (Residue.leaves_refl (chart.initial live))))

/- Charts with the same relevant implicants start alike. -/
theorem prune_initial_eq
    (hSmall : small.IsChartOf primes)
    (hLarge : large.IsChartOf more)
    (hCharts : small.arity = large.arity)
    (hArity : small.arity = table.arity)
    (hLive :
      ∀ column, live.contains column = true ↔
        column ∈ table.mintermSet)
    (hRelevant :
      ∀ row : Row, row.IsRelevantTo table →
        (row ∈ primes ↔ row ∈ more)) :
    (small.initial live).prune =
      (large.initial live).prune := by
  have hRows :
      (small.initial live).prune.candidates.map Line.row =
        (large.initial live).prune.candidates.map
          Line.row := by
    apply Ascending.eq_of_mem_iff
      (hSmall.rows_prune_ascending live)
      (hLarge.rows_prune_ascending live)
    intro row
    rw [hSmall.mem_rows_prune_iff hArity hLive,
      hLarge.mem_rows_prune_iff (hCharts ▸ hArity) hLive]
    exact and_congr_left (hRelevant row)
  have hLinesSmall :
      ∀ line ∈ (small.initial live).prune.candidates,
        IsLine small.arity line := by
    intro line hKept
    exact hSmall.isLine line (List.mem_filter.1 hKept).1
  have hLinesLarge :
      ∀ line ∈ (large.initial live).prune.candidates,
        IsLine small.arity line := by
    intro line hKept
    rw [hCharts]
    exact hLarge.isLine line (List.mem_filter.1 hKept).1
  have hCandidates :=
    eq_of_map_row_eq hLinesSmall hLinesLarge hRows
  exact (Residue.mk.injEq ..).mpr ⟨rfl, hCandidates⟩

/- A minterm is covered by relevant implicants only. -/
theorem covers_eq_of_relevant
    (hSmall : small.IsChartOf primes)
    (hLarge : large.IsChartOf more)
    (hCharts : small.arity = large.arity)
    (hArity : small.arity = table.arity)
    (hRelevant :
      ∀ row : Row, row.IsRelevantTo table →
        (row ∈ primes ↔ row ∈ more))
    {column : Nat}
    (hColumn : column ∈ table.mintermSet) :
    small.covers column = large.covers column := by
  have hHolds :=
    (Table.mem_mintermSet_iff_holds.1 hColumn).2
  rw [← hArity] at hHolds
  rw [Bool.eq_iff_iff, hSmall.covers_iff, hLarge.covers_iff,
    ← hCharts]
  apply and_congr_right
  intro _
  constructor
  · intro hGiven
    rcases hGiven with ⟨row, hRow, hSat⟩
    exact ⟨row, (hRelevant row ⟨_, hHolds, hSat⟩).1 hRow,
      hSat⟩
  · intro hGiven
    rcases hGiven with ⟨row, hRow, hSat⟩
    exact ⟨row, (hRelevant row ⟨_, hHolds, hSat⟩).2 hRow,
      hSat⟩

------------------------------------------------------------
-- Selections in Step
------------------------------------------------------------

/- Only the relevant implicants of a chart count. -/
theorem select_eq_of_relevant
    (hSmall : small.IsChartOf primes)
    (hLarge : large.IsChartOf more)
    (hCharts : small.arity = large.arity)
    (hRelevant :
      ∀ row : Row, row.IsRelevantTo table →
        (row ∈ primes ↔ row ∈ more)) :
    small.select table = large.select table := by
  by_cases hArity : small.arity = table.arity
  · rcases hSmall.exists_liveColumns_eq_ok hArity with
      ⟨live, hLive, hMem⟩
    have hWidth : small.width = large.width := by
      rw [hSmall.width_eq, hLarge.width_eq, hCharts]
    have hLiveLarge :
        large.liveColumns table.mintermSet.toList =
          .ok live := by
      rw [← hLive, liveColumns, liveColumns, hWidth]
    have hFind :
        live.toList.find? (fun i => !small.covers i) =
          live.toList.find? (fun i => !large.covers i) := by
      apply List.find?_congr
      intro column hColumn
      have hMinterm :=
        (hMem column).1 (BitSet.mem_toList_iff.1 hColumn)
      rw [covers_eq_of_relevant hSmall hLarge hCharts hArity
        hRelevant hMinterm]
    have hAssignment : small.assignment = large.assignment := by
      funext column
      rw [assignment, assignment, hCharts]
    rcases takeEssential_congr live.toList
        (prune_initial_eq hSmall hLarge hCharts hArity hMem
          hRelevant) with
      ⟨hRows, hLast⟩
    rw [hSmall.select_of_arity_eq hArity hLive,
      hLarge.select_of_arity_eq (hCharts ▸ hArity)
        hLiveLarge, hFind, hAssignment, hRows,
      takeGreedy_congr small.arity hLast, hCharts]
  · rw [hSmall.select_of_arity_ne hArity,
      hLarge.select_of_arity_ne (hCharts ▸ hArity), hCharts]

end Relevance

/-
  Implicants that hold nowhere on the table may be added to a
  chart, or left out. The same rows are selected in the same
  order, or the same failure is reported.
-/
theorem cover_eq_of_irrelevant
    {primes more : RowSet}
    {arity : Nat}
    {table : Table}
    (hPos : 0 < arity)
    (hLe : arity ≤ maxEnumerable)
    (hPrimes : primes.isEmpty = false)
    (hArity : ∀ row ∈ more, row.arity = arity)
    (hSubset : ∀ row ∈ primes, row ∈ more)
    (hIrrelevant :
      ∀ row ∈ more, ¬ row ∈ primes →
        ∀ assignment, table.Holds assignment →
          row.satisfiedBy assignment = false) :
    ∃ small large, ofPrimes primes = .ok small ∧
      ofPrimes more = .ok large ∧
      small.cover table = large.cover table ∧
      small.select table = large.select table := by
  rcases OrderedSet.exists_first?_eq_some hPrimes with
    ⟨first, hFirst, _⟩
  have hMore : more.isEmpty = false :=
    OrderedSet.isEmpty_eq_false_of_mem
      (hSubset first hFirst)
  rcases exists_ofPrimes_eq_ok hPrimes
      (fun row hRow => hArity row (hSubset row hRow)) hPos
      hLe with
    ⟨small, hSmall, hSmallArity⟩
  rcases exists_ofPrimes_eq_ok hMore hArity hPos hLe with
    ⟨large, hLarge, hLargeArity⟩
  have hRelevant :
      ∀ row : Row, row.IsRelevantTo table →
        (row ∈ primes ↔ row ∈ more) := by
    intro row hGiven
    rcases hGiven with ⟨assignment, hHolds, hSat⟩
    refine ⟨hSubset row, fun hRow => ?_⟩
    by_contra hNew
    rw [hIrrelevant row hRow hNew assignment hHolds] at hSat
    cases hSat
  have hSelect :=
    select_eq_of_relevant (isChartOf_of_ofPrimes hSmall)
      (isChartOf_of_ofPrimes hLarge)
      (hSmallArity.trans hLargeArity.symm) hRelevant
  refine ⟨small, large, hSmall, hLarge, ?_, hSelect⟩
  rw [cover, cover, hSelect]

/-
  The primes of the seven minterms, and two rows beside them
  that hold on none of these. One comes before all primes.
-/
def sevenCrowd : RowSet :=
  Table.sevenPrimes ∪
    OrderedSet.ofList
      [⟨[.zero, .zero, .zero, .zero]⟩,
        ⟨[.one, .dontCare, .one, .dontCare]⟩]

theorem cover_sevenCrowd_eq :
    (∀ row ∈ Table.sevenPrimes, row ∈ sevenCrowd) ∧
      ∃ small large,
        ofPrimes Table.sevenPrimes = .ok small ∧
        ofPrimes sevenCrowd = .ok large ∧
        small.implicant? 0 =
          some ⟨[.zero, .zero, .one, .dontCare]⟩ ∧
        large.implicant? 0 =
          some ⟨[.zero, .zero, .zero, .zero]⟩ ∧
        small.cover Table.sevenMinterms =
          large.cover Table.sevenMinterms ∧
        small.select Table.sevenMinterms =
          large.select Table.sevenMinterms := by
  have hArity : ∀ row ∈ sevenCrowd, row.arity = 4 := by
    decide +kernel
  have hSubset :
      ∀ row ∈ Table.sevenPrimes, row ∈ sevenCrowd := by
    decide +kernel
  have hMinterms :
      ∀ row ∈ sevenCrowd, ¬ row ∈ Table.sevenPrimes →
        ∀ index ∈ Table.sevenMinterms.mintermSet,
          row.satisfiedBy (Row.bitsOfIndex index 4) =
            false := by
    decide +kernel
  have hIrrelevant :
      ∀ row ∈ sevenCrowd, ¬ row ∈ Table.sevenPrimes →
        ∀ assignment, Table.sevenMinterms.Holds assignment →
          row.satisfiedBy assignment = false := by
    intro row hRow hNew assignment hHolds
    rcases Table.holds_iff_exists_minterm.1 hHolds with
      ⟨index, hIndex, rfl⟩
    exact hMinterms row hRow hNew index hIndex
  rcases cover_eq_of_irrelevant (by decide) (by decide)
      (by decide +kernel) hArity hSubset hIrrelevant with
    ⟨small, large, hSmall, hLarge, hCover, hSelect⟩
  refine ⟨hSubset, small, large, hSmall, hLarge, ?_, ?_,
    hCover, hSelect⟩
  · rw [implicant?,
      (isChartOf_of_ofPrimes hSmall).implicants_eq]
    decide +kernel
  · rw [implicant?,
      (isChartOf_of_ofPrimes hLarge).implicants_eq]
    decide +kernel

end Chart

end TwoLevel
