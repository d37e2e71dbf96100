import Mathlib.Data.Finset.Card
import TwoLevel.Proofs.Cover.SoleImplicants
import TwoLevel.Proofs.Table.OnSet

/-
  This file says what the live columns of a residue stand for
  at any time of a selection: the part of the table's on-set
  on which no selected row holds. The gain of a line is the
  number of those assignments that satisfy its row.

  Key definitions include:
    * `columnAssignments`

  Main theorems:
    * `card_image_bitsOfIndex`
    * `columnAssignments_eq_remainder`
    * `gain_eq_card_among`
    * `remainder_eq_empty_of_dead`
-/

namespace TwoLevel

/- The assignments that the columns of a set stand for. -/
def columnAssignments
    (arity : Nat)
    (columns : BitSet) : Finset (List Bool) :=
  columns.toList.toFinset.image
    (fun column => Row.bitsOfIndex column arity)

theorem mem_columnAssignments_iff
    {arity : Nat}
    {columns : BitSet}
    {assignment : List Bool} :
    assignment ∈ columnAssignments arity columns ↔
      ∃ column, columns.contains column = true ∧
        Row.bitsOfIndex column arity = assignment := by
  simp [columnAssignments]

/- Different columns stand for different assignments. -/
theorem card_image_bitsOfIndex
    {arity : Nat}
    {columns : Finset Nat}
    (hLt :
      ∀ column ∈ columns, column < assignmentCount arity) :
    (columns.image
        (fun column => Row.bitsOfIndex column arity)).card =
      columns.card := by
  apply Finset.card_image_of_injOn
  intro i hi j hj hBits
  exact Row.bitsOfIndex_inj (hLt i hi) (hLt j hj) hBits

namespace Chart

section Live

variable {primes : RowSet}
variable {chart : Chart}
variable {table : Table}
variable {selection : Selection}
variable {live : BitSet}
variable {between residue : Residue}
variable {taken : List Row}

/-
  A column is live when no selected line has it, and its
  assignment is left over when no selected row holds on it.
-/
theorem IsRun.columnAssignments_eq_remainder
    (hRun : chart.IsRun table selection live between)
    (h : chart.IsChartOf primes)
    (hLeaves : (chart.initial live).Leaves taken residue) :
    columnAssignments chart.arity residue.live =
      remainder table.onSet taken := by
  ext assignment
  rw [mem_columnAssignments_iff, mem_remainder_iff,
    Table.mem_onSet_iff]
  constructor
  · intro hGiven
    rcases hGiven with ⟨column, hColumn, rfl⟩
    rcases (hLeaves.live_iff column).1 hColumn with
      ⟨hLive, hDead⟩
    have hLt := hRun.lt_of_live hLive
    have hMinterm := (hRun.live_iff column).1 hLive
    rw [Table.mem_mintermSet_iff_holds, ← hRun.arity_eq]
      at hMinterm
    refine ⟨hMinterm.2, fun row hRow => ?_⟩
    rcases hLeaves.exists_line row hRow with
      ⟨line, hLine, rfl⟩
    rw [← Bool.not_eq_true,
      ← h.contains_iff_satisfiedBy hLine hLt,
      Bool.not_eq_true]
    exact hDead line hLine hRow
  · intro hGiven
    rcases hGiven with ⟨hHolds, hNone⟩
    rcases hRun.exists_column_of_holds hHolds with
      ⟨column, hLive, hBits⟩
    refine ⟨column, ?_, hBits⟩
    rw [hLeaves.live_iff]
    refine ⟨hLive, fun line hLine hRow => ?_⟩
    rw [← Bool.not_eq_true,
      h.contains_iff_satisfiedBy hLine
        (hRun.lt_of_live hLive), hBits, Bool.not_eq_true]
    exact hNone line.row hRow

/- A gain counts assignments that are left over. -/
theorem IsRun.gain_eq_card_among
    (hRun : chart.IsRun table selection live between)
    (h : chart.IsChartOf primes)
    (hLeaves : (chart.initial live).Leaves taken residue)
    {line : Line}
    (hLine : line ∈ chart.lines) :
    gain residue.live line =
      (line.row.among
        (remainder table.onSet taken)).card := by
  have hLt :
      ∀ column ∈
          (line.columns.toList.filter
            residue.live.contains).toFinset,
        column < assignmentCount chart.arity := by
    intro column hColumn
    rw [List.mem_toFinset, List.mem_filter] at hColumn
    exact hRun.lt_of_live
      (hLeaves.contains_of_live hColumn.2)
  have hNodup :
      (line.columns.toList.filter
        residue.live.contains).Nodup :=
    ((BitSet.toList_ascending line.columns).imp
      Nat.ne_of_lt).filter _
  rw [gain, BitSet.interSize_eq_length,
    ← List.toFinset_card_of_nodup hNodup,
    ← card_image_bitsOfIndex hLt,
    ← hRun.columnAssignments_eq_remainder h hLeaves]
  congr 1
  ext assignment
  simp only [Finset.mem_image, List.mem_toFinset,
    List.mem_filter, BitSet.mem_toList_iff,
    Row.mem_among_iff, mem_columnAssignments_iff]
  constructor
  · intro hGiven
    rcases hGiven with ⟨column, ⟨hContains, hLive⟩, rfl⟩
    have hColumn :=
      hRun.lt_of_live (hLeaves.contains_of_live hLive)
    exact ⟨⟨column, hLive, rfl⟩,
      (h.contains_iff_satisfiedBy hLine hColumn).1
        hContains⟩
  · intro hGiven
    rcases hGiven with ⟨⟨column, hLive, rfl⟩, hSat⟩
    have hColumn :=
      hRun.lt_of_live (hLeaves.contains_of_live hLive)
    exact ⟨column,
      ⟨(h.contains_iff_satisfiedBy hLine hColumn).2 hSat,
        hLive⟩, rfl⟩

/- Where no column is live, no assignment is left over. -/
theorem IsRun.remainder_eq_empty_of_dead
    (hRun : chart.IsRun table selection live between)
    (h : chart.IsChartOf primes)
    (hLeaves : (chart.initial live).Leaves taken residue)
    (hDead : ∀ column, residue.live.contains column ≠ true) :
    remainder table.onSet taken = ∅ := by
  rw [← hRun.columnAssignments_eq_remainder h hLeaves,
    Finset.eq_empty_iff_forall_notMem]
  intro assignment hMem
  rcases mem_columnAssignments_iff.1 hMem with
    ⟨column, hLive, _⟩
  exact hDead column hLive

end Live

end Chart

end TwoLevel
