import TwoLevel.Proofs.Cover.LiveAssignments

/-
  This file defines when a list of rows makes progress on a
  set of assignments: each row in turn satisfies one that the
  rows before it leave over. Such a list holds no row twice.
  The first stage of a selection makes progress on the on-set
  of the table.

  Key definitions include:
    * `Advances`

  Main theorems:
    * `Advances.nodup`
    * `Advances.append`
    * `Advances.length_le_card`
    * `advances_essential`
-/

namespace TwoLevel

------------------------------------------------------------
-- Progress
------------------------------------------------------------

/-
  Each row satisfies one of the assignments that are left over
  by the rows before it.
-/
inductive Advances :
    Finset (List Bool) → List Row → Prop where
  | done (assignments : Finset (List Bool)) :
      Advances assignments []
  | step
      {assignments : Finset (List Bool)}
      {row : Row}
      {rows : List Row}
      (hGain :
        ∃ assignment ∈ assignments,
          row.satisfiedBy assignment = true)
      (hRest : Advances (remainder assignments [row]) rows) :
      Advances assignments (row :: rows)

namespace Advances

variable {assignments : Finset (List Bool)}
variable {rows others : List Row}

theorem exists_of_mem
    (h : Advances assignments rows)
    {row : Row}
    (hRow : row ∈ rows) :
    ∃ assignment ∈ assignments,
      row.satisfiedBy assignment = true := by
  induction h with
  | done => cases hRow
  | step hGain hRest ih =>
      rcases List.mem_cons.1 hRow with rfl | hRow
      · exact hGain
      · rcases ih hRow with ⟨assignment, hLeft, hSat⟩
        exact ⟨assignment, (mem_remainder_iff.1 hLeft).1,
          hSat⟩

/- A row that comes again would find nothing left. -/
theorem nodup
    (h : Advances assignments rows) :
    rows.Nodup := by
  induction h with
  | done => exact List.nodup_nil
  | @step assignments row rows hGain hRest ih =>
      refine List.nodup_cons.2 ⟨?_, ih⟩
      intro hAgain
      rcases hRest.exists_of_mem hAgain with
        ⟨assignment, hLeft, hSat⟩
      exact not_mem_of_mem_remainder hLeft hSat
        (List.mem_singleton_self row)

theorem append
    (h : Advances assignments rows)
    (hOthers : Advances (remainder assignments rows) others) :
    Advances assignments (rows ++ others) := by
  induction h with
  | done assignments =>
      rw [remainder_nil] at hOthers
      exact hOthers
  | step hGain hRest ih =>
      rw [remainder_cons] at hOthers
      exact .step hGain (ih hOthers)

/- Each row needs an assignment of its own. -/
theorem length_le_card
    (h : Advances assignments rows) :
    rows.length ≤ assignments.card := by
  induction h with
  | done assignments => exact Nat.zero_le _
  | @step assignments row rows hGain hRest ih =>
      have hShare : 0 < (row.among assignments).card := by
        rcases hGain with ⟨assignment, hMem, hSat⟩
        exact Finset.card_pos.2
          ⟨assignment, Row.mem_among_iff.2 ⟨hMem, hSat⟩⟩
      have hCard :=
        card_among_add_card_remainder row assignments
      rw [List.length_cons]
      omega

end Advances

------------------------------------------------------------
-- The First Stage
------------------------------------------------------------

namespace Chart

section Extraction

variable {primes : RowSet}
variable {chart : Chart}
variable {table : Table}
variable {selection : Selection}
variable {live : BitSet}
variable {between : Residue}

/- The column of a sole satisfier is live before its turn. -/
theorem IsRun.advances_of_extraction
    (hRun : chart.IsRun table selection live between)
    (h : chart.IsChartOf primes)
    {residue last : Residue}
    {taken rows : List Row}
    (hLeaves : (chart.initial live).Leaves taken residue)
    (hExtraction : Extraction residue rows last) :
    Advances (remainder table.onSet taken) rows := by
  induction hExtraction generalizing taken with
  | done residue => exact .done _
  | @take residue last column line rows hLive hSole hRest
      ih =>
      have hDistinct := h.distinct_initial live
      rcases mem_of_soleSatisfier?_eq_some hSole with
        ⟨hMem, hContains⟩
      have hNext :=
        ih (Residue.leaves_take hLeaves hDistinct hMem)
      rw [remainder_append] at hNext
      refine .step ?_ hNext
      refine ⟨Row.bitsOfIndex column chart.arity, ?_, ?_⟩
      · rw [← hRun.columnAssignments_eq_remainder h hLeaves,
          mem_columnAssignments_iff]
        exact ⟨column, hLive, rfl⟩
      · have hLt :=
          hRun.lt_of_live (hLeaves.contains_of_live hLive)
        exact (h.contains_iff_satisfiedBy
          (hLeaves.mem_candidates hMem) hLt).1 hContains

theorem IsRun.advances_essential
    (hRun : chart.IsRun table selection live between)
    (h : chart.IsChartOf primes) :
    Advances table.onSet selection.essential := by
  have hAdvances :=
    hRun.advances_of_extraction h
      (Residue.leaves_refl (chart.initial live))
      hRun.extraction
  rw [remainder_nil] at hAdvances
  exact hAdvances

end Extraction

end Chart

end TwoLevel
