import TwoLevel.Proofs.Cover.Outcome

/-
  This file says which rows the first stage selects: those
  that no cover made of the chart's implicants can do without,
  since on some assignment of the table no other one holds.

  Key definitions include:
    * `Chart.IsSoleImplicant`

  Main theorems:
    * `isEssential_initial_iff`
    * `mem_of_isSoleImplicant`
    * `mem_essential_iff_isSoleImplicant`
-/

namespace TwoLevel

namespace Chart

/-
  On some assignment of the table the row is the only one of
  all implicants that holds.
-/
def IsSoleImplicant
    (chart : Chart)
    (table : Table)
    (row : Row) : Prop :=
  row ∈ chart.implicants ∧
    ∃ assignment, table.Holds assignment ∧
      row.satisfiedBy assignment = true ∧
      ∀ other ∈ chart.implicants,
        other.satisfiedBy assignment = true → other = row

section Sole

variable {primes : RowSet}
variable {chart : Chart}
variable {table : Table}

/- On a live column, marks and satisfaction agree. -/
theorem IsChartOf.contains_iff_satisfiedBy
    (h : chart.IsChartOf primes)
    {line : Line}
    (hLine : line ∈ chart.lines)
    {column : Nat}
    (hLt : column < assignmentCount chart.arity) :
    line.columns.contains column = true ↔
      line.row.satisfiedBy
        (Row.bitsOfIndex column chart.arity) = true := by
  rw [(h.isLine line hLine).contains_iff]
  exact ⟨fun hBoth => hBoth.2, fun hSat => ⟨hLt, hSat⟩⟩

theorem IsRun.lt_of_live
    {selection : Selection}
    {live : BitSet}
    {between : Residue}
    (hRun : chart.IsRun table selection live between)
    {column : Nat}
    (hLive : live.contains column = true) :
    column < assignmentCount chart.arity := by
  rw [hRun.live_iff, Table.mem_mintermSet_iff_holds,
    ← hRun.arity_eq] at hLive
  exact hLive.1

/- Columns and lines say what assignments and rows do. -/
theorem IsRun.isEssential_initial_iff
    {selection : Selection}
    {live : BitSet}
    {between : Residue}
    (hRun : chart.IsRun table selection live between)
    (h : chart.IsChartOf primes)
    {row : Row} :
    (chart.initial live).IsEssential row ↔
      chart.IsSoleImplicant table row := by
  have hDistinct := h.distinct_initial live
  constructor
  · intro hGiven
    rcases hGiven with ⟨column, hLive, line, hSole, rfl⟩
    rcases (soleSatisfier?_eq_some_iff hDistinct.nodup).1
        hSole with ⟨hLine, hContains, hOnly⟩
    have hLt := hRun.lt_of_live hLive
    have hHolds := (hRun.live_iff column).1 hLive
    rw [Table.mem_mintermSet_iff_holds, ← hRun.arity_eq]
      at hHolds
    refine ⟨List.mem_map_of_mem hLine,
      Row.bitsOfIndex column chart.arity, hHolds.2,
      (h.contains_iff_satisfiedBy hLine hLt).1 hContains, ?_⟩
    intro other hOther hSat
    rcases mem_implicants_iff_exists_line.1 hOther with
      ⟨another, hAnother, rfl⟩
    have hMark :=
      (h.contains_iff_satisfiedBy hAnother hLt).2 hSat
    rw [hOnly another hAnother hMark]
  · intro hGiven
    rcases hGiven with
      ⟨hRow, assignment, hHolds, hSat, hOnly⟩
    rcases mem_implicants_iff_exists_line.1 hRow with
      ⟨line, hLine, rfl⟩
    rcases hRun.exists_column_of_holds hHolds with
      ⟨column, hLive, rfl⟩
    have hLt := hRun.lt_of_live hLive
    refine ⟨column, hLive, line, ?_, rfl⟩
    rw [soleSatisfier?_eq_some_iff hDistinct.nodup]
    refine ⟨hLine,
      (h.contains_iff_satisfiedBy hLine hLt).2 hSat, ?_⟩
    intro other hOther hContains
    have hOtherSat :=
      (h.contains_iff_satisfiedBy hOther hLt).1 hContains
    have hRows :=
      hOnly other.row (List.mem_map_of_mem hOther) hOtherSat
    exact hDistinct.eq_of_row_eq hOther hLine hRows

/- A cover by implicants has every sole implicant. -/
theorem mem_of_isSoleImplicant
    {row : Row}
    (hSole : chart.IsSoleImplicant table row)
    {rows : RowSet}
    (hRows : ∀ other ∈ rows, other ∈ chart.implicants)
    (hCovers :
      ∀ assignment, table.Holds assignment →
        ∃ other ∈ rows,
          other.satisfiedBy assignment = true) :
    row ∈ rows := by
  rcases hSole with ⟨_, assignment, hHolds, _, hOnly⟩
  rcases hCovers assignment hHolds with
    ⟨other, hOther, hSat⟩
  rw [← hOnly other (hRows other hOther) hSat]
  exact hOther

end Sole

/-
  The first stage selects the sole implicants, and a cover by
  implicants selects them all.
-/
theorem mem_essential_iff_isSoleImplicant
    {primes : RowSet}
    {chart : Chart}
    {table : Table}
    {cover : Cover}
    (hChart : Chart.ofPrimes primes = .ok chart)
    (hCover : chart.cover table = .ok cover) :
    (∀ row, row ∈ cover.essential ↔
      chart.IsSoleImplicant table row) ∧
    ∀ rows : RowSet,
      (∀ row ∈ rows, row ∈ chart.implicants) →
      (∀ assignment, table.Holds assignment →
        ∃ row ∈ rows, row.satisfiedBy assignment = true) →
      ∀ row ∈ cover.essential, row ∈ rows := by
  have h := isChartOf_of_ofPrimes hChart
  rcases cover_eq_ok_iff.1 hCover with
    ⟨selection, hSelect, rfl⟩
  rcases h.exists_isRun hSelect with ⟨live, between, hRun⟩
  have hEssential :
      ∀ row, row ∈ selection.cover.essential ↔
        chart.IsSoleImplicant table row := by
    intro row
    rw [Selection.cover, OrderedSet.mem_ofList_iff,
      mem_iff_isEssential_of_extraction
        (h.distinct_initial live) hRun.extraction
        hRun.exhausted,
      hRun.isEssential_initial_iff h]
  refine ⟨hEssential, fun rows hRows hCovers row hRow => ?_⟩
  exact mem_of_isSoleImplicant ((hEssential row).1 hRow)
    hRows hCovers

/-
  Of the implicants of `x1 | x2`, the one that stands for `x1`
  is selected first where `x1` has to be covered.
-/
theorem mem_essential_disjunction_iff :
    ∃ chart cover, Chart.ofPrimes disjunction = .ok chart ∧
      chart.cover (tableOfRow .one [.dontCare]) =
        .ok cover ∧
      cover.essential.toList = [⟨[.one, .dontCare]⟩] ∧
      (∀ row, row ∈ cover.essential ↔
        chart.IsSoleImplicant (tableOfRow .one [.dontCare])
          row) ∧
      ∀ rows : RowSet,
        (∀ row ∈ rows, row ∈ chart.implicants) →
        (∀ assignment,
          (tableOfRow .one [.dontCare]).Holds assignment →
            ∃ row ∈ rows,
              row.satisfiedBy assignment = true) →
        ∀ row ∈ cover.essential, row ∈ rows := by
  have hOk :
      (Chart.ofPrimes disjunction >>= fun chart =>
        chart.cover (tableOfRow .one [.dontCare])).map
        (fun cover => cover.essential.toList) =
          .ok [⟨[.one, .dontCare]⟩] := by
    decide +kernel
  rcases map_eq_ok_iff.1 hOk with ⟨cover, hBoth, hList⟩
  rcases bind_eq_ok_iff.1 hBoth with
    ⟨chart, hChart, hCover⟩
  exact ⟨chart, cover, hChart, hCover, hList,
    mem_essential_iff_isSoleImplicant hChart hCover⟩

end Chart

end TwoLevel
