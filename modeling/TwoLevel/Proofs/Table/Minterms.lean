import TwoLevel.Proofs.Row.Enumeration
import TwoLevel.Table

/-
  This file defines the Boolean function that a table stands
  for: it holds where some row is satisfied. The minterms of a
  table are the numbers of the assignments on which its
  function holds.

  Key definitions include:
    * `Table.Holds`

  Main theorems:
    * `mem_mintermSet_iff_holds`
    * `holds_iff_exists_minterm`
    * `holds_iff_ofBools_mem`
    * `minterms_eq_ok`
-/

namespace TwoLevel

namespace Table

/- The function of a table: some row is satisfied. -/
def Holds
    (table : Table)
    (assignment : List Bool) : Prop :=
  ∃ row ∈ table.rows, row.satisfiedBy assignment = true

theorem length_eq_of_holds
    {table : Table}
    {assignment : List Bool}
    (h : table.Holds assignment) :
    assignment.length = table.arity := by
  rcases h with ⟨row, hRow, hSat⟩
  rw [Row.length_eq_of_satisfiedBy hSat,
    table.row_arity row hRow]

/- The minterms are where the function holds. -/
theorem mem_mintermSet_iff_holds
    {table : Table}
    {index : Nat} :
    index ∈ table.mintermSet ↔
      index < assignmentCount table.arity ∧
        table.Holds (Row.bitsOfIndex index table.arity) := by
  rw [mem_mintermSet_iff]
  constructor
  · intro hGiven
    rcases hGiven with ⟨row, hRow, hIndex⟩
    rw [Row.mem_assignments_iff_satisfiedBy,
      table.row_arity row hRow] at hIndex
    exact ⟨hIndex.1, row, hRow, hIndex.2⟩
  · intro hGiven
    rcases hGiven with ⟨hLt, row, hRow, hSat⟩
    refine ⟨row, hRow, ?_⟩
    rw [Row.mem_assignments_iff_satisfiedBy,
      table.row_arity row hRow]
    exact ⟨hLt, hSat⟩

/- The function holds on the assignments of the minterms. -/
theorem holds_iff_exists_minterm
    {table : Table}
    {assignment : List Bool} :
    table.Holds assignment ↔
      ∃ index ∈ table.mintermSet,
        Row.bitsOfIndex index table.arity = assignment := by
  constructor
  · intro hHolds
    have hLength := length_eq_of_holds hHolds
    rcases Row.exists_bitsOfIndex_eq assignment with
      ⟨index, hLt, hBits⟩
    rw [hLength] at hLt hBits
    refine ⟨index, mem_mintermSet_iff_holds.2 ⟨hLt, ?_⟩,
      hBits⟩
    rw [hBits]
    exact hHolds
  · intro hGiven
    rcases hGiven with ⟨index, hIndex, rfl⟩
    exact (mem_mintermSet_iff_holds.1 hIndex).2

/- A table of assignments holds on those it lists. -/
theorem holds_iff_ofBools_mem
    {table : Table}
    (hFull :
      ∀ row ∈ table.rows, row.isAssignment = true)
    {assignment : List Bool} :
    table.Holds assignment ↔
      Row.ofBools assignment ∈ table.rows := by
  constructor
  · intro hHolds
    rcases hHolds with ⟨row, hRow, hSat⟩
    rcases Row.exists_ofBools_eq (hFull row hRow) with
      ⟨bits, rfl⟩
    rw [Row.satisfiedBy_ofBools, decide_eq_true_eq] at hSat
    rw [← hSat]
    exact hRow
  · intro hRow
    refine ⟨Row.ofBools assignment, hRow, ?_⟩
    rw [Row.satisfiedBy_ofBools, decide_eq_true_eq]

theorem minterms_eq_ok
    {table : Table}
    (h : table.arity ≤ maxEnumerable) :
    table.minterms = .ok table.mintermSet := by
  have hCheck :=
    checkEnumerable_eq_ok_iff.2 ⟨table.arity_pos, h⟩
  rw [minterms, hCheck]
  rfl

end Table

end TwoLevel
