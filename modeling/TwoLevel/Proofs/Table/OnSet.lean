import Mathlib.Data.Finset.Card
import Mathlib.Data.Finset.Image
import TwoLevel.Proofs.Table.Minterms

/-
  This file defines the on-set of a table: the finite set of
  the assignments on which its function holds. Selecting rows
  leaves a remainder of it, where none of the rows holds.

  Key definitions include:
    * `Table.onSet`
    * `Row.among`
    * `remainder`

  Main theorems:
    * `mem_onSet_iff`
    * `mem_remainder_iff`
    * `not_mem_of_mem_remainder`
    * `remainder_append`
    * `among_remainder_singleton`
    * `card_among_add_card_remainder`
-/

namespace TwoLevel

------------------------------------------------------------
-- On-Sets
------------------------------------------------------------

/- All assignments to so many variables. -/
def allAssignments
    (arity : Nat) : Finset (List Bool) :=
  (Finset.range (assignmentCount arity)).image
    (fun index => Row.bitsOfIndex index arity)

theorem mem_allAssignments_iff
    {arity : Nat}
    {assignment : List Bool} :
    assignment ∈ allAssignments arity ↔
      assignment.length = arity := by
  rw [allAssignments, Finset.mem_image]
  constructor
  · intro hGiven
    rcases hGiven with ⟨index, _, rfl⟩
    exact Row.length_bitsOfIndex index arity
  · intro hLength
    subst hLength
    rcases Row.exists_bitsOfIndex_eq assignment with
      ⟨index, hLt, hBits⟩
    exact ⟨index, Finset.mem_range.2 hLt, hBits⟩

namespace Table

/- The assignments on which some row of a table holds. -/
def onSet
    (table : Table) : Finset (List Bool) :=
  (allAssignments table.arity).filter
    (fun assignment =>
      ∃ row ∈ table.rows.toList,
        row.satisfiedBy assignment = true)

theorem mem_onSet_iff
    {table : Table}
    {assignment : List Bool} :
    assignment ∈ table.onSet ↔ table.Holds assignment := by
  rw [onSet, Finset.mem_filter, mem_allAssignments_iff]
  constructor
  · intro hBoth
    exact hBoth.2
  · intro hHolds
    exact ⟨length_eq_of_holds hHolds, hHolds⟩

end Table

------------------------------------------------------------
-- Shares and Remainders
------------------------------------------------------------

/- Those of the given assignments that satisfy a row. -/
def Row.among
    (row : Row)
    (assignments : Finset (List Bool)) :
    Finset (List Bool) :=
  assignments.filter
    (fun assignment => row.satisfiedBy assignment = true)

@[simp] theorem Row.mem_among_iff
    {row : Row}
    {assignments : Finset (List Bool)}
    {assignment : List Bool} :
    assignment ∈ row.among assignments ↔
      assignment ∈ assignments ∧
        row.satisfiedBy assignment = true :=
  Finset.mem_filter

theorem Row.among_subset
    (row : Row)
    (assignments : Finset (List Bool)) :
    row.among assignments ⊆ assignments :=
  Finset.filter_subset _ assignments

/- Those of the given assignments on which no row holds. -/
def remainder
    (assignments : Finset (List Bool))
    (rows : List Row) : Finset (List Bool) :=
  assignments.filter
    (fun assignment =>
      ∀ row ∈ rows, row.satisfiedBy assignment = false)

section Remainders

variable {assignments : Finset (List Bool)}
variable {rows : List Row}

@[simp] theorem mem_remainder_iff
    {assignment : List Bool} :
    assignment ∈ remainder assignments rows ↔
      assignment ∈ assignments ∧
        ∀ row ∈ rows, row.satisfiedBy assignment = false :=
  Finset.mem_filter

/- A row that holds on what is left is not selected. -/
theorem not_mem_of_mem_remainder
    {assignment : List Bool}
    (hLeft : assignment ∈ remainder assignments rows)
    {row : Row}
    (hSat : row.satisfiedBy assignment = true) :
    row ∉ rows := by
  intro hRow
  rw [(mem_remainder_iff.1 hLeft).2 row hRow] at hSat
  cases hSat

@[simp] theorem remainder_nil
    (assignments : Finset (List Bool)) :
    remainder assignments [] = assignments := by
  ext assignment
  simp

/- What is left does not depend on order or repetition. -/
theorem remainder_congr
    {others : List Row}
    (h : ∀ row, row ∈ rows ↔ row ∈ others) :
    remainder assignments rows =
      remainder assignments others := by
  ext assignment
  simp only [mem_remainder_iff, h]

theorem remainder_append
    (assignments : Finset (List Bool))
    (rows others : List Row) :
    remainder assignments (rows ++ others) =
      remainder (remainder assignments rows) others := by
  ext assignment
  simp only [mem_remainder_iff, List.forall_mem_append,
    and_assoc]

theorem remainder_cons
    (assignments : Finset (List Bool))
    (row : Row)
    (rows : List Row) :
    remainder assignments (row :: rows) =
      remainder (remainder assignments [row]) rows :=
  remainder_append assignments [row] rows

/- Of the share of a row, the selected row's part goes. -/
theorem among_remainder_singleton
    (row selected : Row)
    (assignments : Finset (List Bool)) :
    row.among (remainder assignments [selected]) =
      row.among assignments \
        row.among (selected.among assignments) := by
  ext assignment
  simp only [Row.mem_among_iff, mem_remainder_iff,
    List.mem_singleton, forall_eq, Finset.mem_sdiff]
  cases selected.satisfiedBy assignment <;> simp

/- A row has its share, and leaves the others over. -/
theorem card_among_add_card_remainder
    (row : Row)
    (assignments : Finset (List Bool)) :
    (row.among assignments).card +
        (remainder assignments [row]).card =
      assignments.card := by
  have hRest :
      remainder assignments [row] =
        assignments.filter
          (fun assignment =>
            ¬ row.satisfiedBy assignment = true) := by
    ext assignment
    simp
  rw [hRest, Row.among]
  exact Finset.card_filter_add_card_filter_not _

end Remainders

end TwoLevel
