import Mathlib.Logic.Equiv.Fin.Rotate
import TwoLevel.Proofs.Reduction.Rounds
import TwoLevel.Proofs.Row.Symmetry

/-
  This file shows that reduction treats all variables and both
  truth values alike. A symmetry that moves the rows of a
  table moves its prime implicants.

  The rows change places in the working list, so their pairs
  are compared in another order and the other way round. What
  a round finds out depends on which rows merge into which
  others, and that moves along.

  Key definitions include:
    * `Symmetry.Moves`
    * `Symmetry.onRows`

  Main theorems:
    * `moves_merged`
    * `moves_unmerged`
    * `moves_primesOf_rounds`
    * `exists_reduce_onRows`
-/

namespace TwoLevel

namespace Symmetry

section Rounds

variable (config config' : Config)
variable {arity : Nat}
variable {symmetry : Symmetry arity}
variable {working moved : List Row}

/- The rows of the second list are those of the first, moved. -/
def Moves
    (symmetry : Symmetry arity)
    (working moved : List Row) : Prop :=
  ∀ row, row ∈ moved ↔
    ∃ original ∈ working, symmetry.onRow original = row

------------------------------------------------------------
-- One Round
------------------------------------------------------------

/- The rows of the next round move along. -/
theorem moves_merged
    (hArity : ∀ row ∈ working, row.arity = arity)
    (h : symmetry.Moves working moved) :
    symmetry.Moves
      (Round.ofRows config working).merged.toList
      (Round.ofRows config' moved).merged.toList := by
  intro row
  rw [OrderedSet.mem_toList_iff, Round.mem_merged_iff]
  constructor
  · intro hGiven
    rcases hGiven with ⟨a', ha', b', hb', hMerge⟩
    rcases (h a').1 ha' with ⟨a, ha, rfl⟩
    rcases (h b').1 hb' with ⟨b, hb, rfl⟩
    rw [symmetry.merge_onRow (hArity a ha) (hArity b hb)]
      at hMerge
    rcases Option.map_eq_some_iff.1 hMerge with
      ⟨c, hc, hRow⟩
    exact ⟨c, Round.mem_merged_iff.2 ⟨a, ha, b, hb, hc⟩,
      hRow⟩
  · intro hGiven
    rcases hGiven with ⟨c, hc, rfl⟩
    rcases Round.mem_merged_iff.1 hc with
      ⟨a, ha, b, hb, hMerge⟩
    have hMoved :=
      symmetry.merge_onRow_of_merge (hArity a ha)
        (hArity b hb) hMerge
    exact ⟨symmetry.onRow a, (h _).2 ⟨a, ha, rfl⟩,
      symmetry.onRow b, (h _).2 ⟨b, hb, rfl⟩, hMoved⟩

/- The rows that are left over move along. -/
theorem moves_unmerged
    (hArity : ∀ row ∈ working, row.arity = arity)
    (h : symmetry.Moves working moved) :
    symmetry.Moves
      (Round.ofRows config working).unmerged
      (Round.ofRows config' moved).unmerged := by
  have hMerge :
      ∀ a ∈ working, ∀ b ∈ working,
        (symmetry.onRow a).merge (symmetry.onRow b) = none ↔
          a.merge b = none := by
    intro a ha b hb
    rw [symmetry.merge_onRow (hArity a ha) (hArity b hb)]
    exact Option.map_eq_none_iff
  intro row
  rw [Round.mem_unmerged_iff]
  constructor
  · intro hGiven
    rcases hGiven with ⟨hRow, hNone⟩
    rcases (h row).1 hRow with ⟨original, hOriginal, rfl⟩
    refine ⟨original, ?_, rfl⟩
    refine Round.mem_unmerged_iff.2 ⟨hOriginal, ?_⟩
    intro other hOther
    have hMoved := hNone _ ((h _).2 ⟨other, hOther, rfl⟩)
    exact (hMerge original hOriginal other hOther).1 hMoved
  · intro hGiven
    rcases hGiven with ⟨original, hUnmerged, rfl⟩
    rcases Round.mem_unmerged_iff.1 hUnmerged with
      ⟨hOriginal, hNone⟩
    refine ⟨(h _).2 ⟨original, hOriginal, rfl⟩, ?_⟩
    intro other' hOther'
    rcases (h other').1 hOther' with ⟨other, hOther, rfl⟩
    exact (hMerge original hOriginal other hOther).2
      (hNone other hOther)

------------------------------------------------------------
-- All Rounds
------------------------------------------------------------

/- Nothing else is moved to where nothing was. -/
theorem Moves.eq_nil
    (h : symmetry.Moves [] moved) :
    moved = [] := by
  apply List.eq_nil_iff_forall_not_mem.2
  intro row hRow
  rcases (h row).1 hRow with ⟨original, hOriginal, _⟩
  cases hOriginal

/- By induction on the rounds, each of which moves along. -/
theorem moves_primesOf_rounds
    (hArity : ∀ row ∈ working, row.arity = arity)
    (h : symmetry.Moves working moved) :
    symmetry.Moves
      (primesOf (rounds config working)).toList
      (primesOf (rounds config' moved)).toList := by
  induction working using roundsInduction config
      generalizing moved with
  | done =>
      intro row
      simp [h.eq_nil, rounds, primesOf]
  | round first rest ih =>
      have hUnmerged :=
        moves_unmerged config config' hArity h
      have hLater :=
        ih (Round.arity_of_mem_merged hArity)
          (moves_merged config config' hArity h)
      intro row
      constructor
      · intro hRow
        rcases mem_primesOf_rounds_iff.1 hRow with hNow | hThen
        · rcases (hUnmerged row).1 hNow with
            ⟨original, hOriginal, hEq⟩
          exact ⟨original,
            mem_primesOf_rounds_iff.2 (Or.inl hOriginal), hEq⟩
        · rcases (hLater row).1 hThen with
            ⟨original, hOriginal, hEq⟩
          exact ⟨original,
            mem_primesOf_rounds_iff.2 (Or.inr hOriginal), hEq⟩
      · intro hGiven
        rcases hGiven with ⟨original, hOriginal, hEq⟩
        rcases mem_primesOf_rounds_iff.1 hOriginal with
          hNow | hThen
        · have hRow := (hUnmerged row).2 ⟨original, hNow, hEq⟩
          exact mem_primesOf_rounds_iff.2 (Or.inl hRow)
        · have hRow := (hLater row).2 ⟨original, hThen, hEq⟩
          exact mem_primesOf_rounds_iff.2 (Or.inr hRow)

end Rounds

------------------------------------------------------------
-- Reducing a Moved Table
------------------------------------------------------------

/- Move all rows of a set. -/
def onRows
    {arity : Nat}
    (symmetry : Symmetry arity)
    (rows : RowSet) : RowSet :=
  OrderedSet.ofList (rows.toList.map symmetry.onRow)

theorem moves_onRows
    {arity : Nat}
    (symmetry : Symmetry arity)
    (rows : RowSet) :
    symmetry.Moves rows.toList
      (symmetry.onRows rows).toList := by
  intro row
  rw [OrderedSet.mem_toList_iff, onRows,
    OrderedSet.mem_ofList_iff, List.mem_map]

end Symmetry

namespace Table

/-
  The moved rows make up a table again, and reducing it gives
  the primes of the table, moved.
-/
theorem exists_reduce_onRows
    (config config' : Config)
    {table : Table}
    (hRows : table.isEmpty = false)
    (symmetry : Symmetry table.arity) :
    ∃ moved primes,
      Table.ofRows table.arity
          (table.rows.toList.map symmetry.onRow) =
        .ok moved ∧
      table.reduce config = .ok primes ∧
      moved.reduce config' = .ok (symmetry.onRows primes) := by
  have hArity :
      ∀ row ∈ table.rows.toList.map symmetry.onRow,
        row.arity = table.arity := by
    intro row hRow
    rcases List.mem_map.1 hRow with ⟨original, _, rfl⟩
    exact symmetry.arity_onRow original
  rcases exists_ofRows_eq_ok table.arity_pos hArity with
    ⟨moved, hMoved, _, hMovedRows⟩
  have hMoves :
      symmetry.Moves table.rows.toList moved.rows.toList := by
    rw [hMovedRows]
    exact symmetry.moves_onRows table.rows
  refine ⟨moved, _, hMoved, reduce_eq_ok config hRows,
    reduce_eq_ok_iff.2 ⟨?_, ?_⟩⟩
  · rcases OrderedSet.exists_first?_eq_some hRows with
      ⟨first, hFirst, _⟩
    have hMem : symmetry.onRow first ∈ moved.rows :=
      (hMoves _).2 ⟨first, hFirst, rfl⟩
    exact OrderedSet.isEmpty_eq_false_of_mem hMem
  · have hPrimes :=
      Symmetry.moves_primesOf_rounds config config'
        table.row_arity hMoves
    ext row
    exact (symmetry.moves_onRows _ row).trans
      (hPrimes row).symm

/- Rows of three levels, the last of which is in no merge. -/
def lopsided : Table where
  arity := 3
  rows :=
    OrderedSet.ofList
      [⟨[.zero, .zero, .one]⟩, ⟨[.zero, .one, .one]⟩,
        ⟨[.one, .dontCare, .one]⟩,
        ⟨[.dontCare, .dontCare, .zero]⟩]
  arity_pos := Nat.succ_pos 2
  row_arity := by decide +kernel

/- The variables go round, and the new second is negated. -/
def turned : Symmetry 3 where
  source := finRotate 3
  negated := fun i => i == 1

example :
    turned.onRow ⟨[.dontCare, .zero, .one]⟩ =
      ⟨[.zero, .zero, .dontCare]⟩ := by
  decide +kernel

theorem exists_reduce_lopsided_onRows :
    lopsided.isEmpty = false ∧
      ∃ moved primes,
        Table.ofRows lopsided.arity
            (lopsided.rows.toList.map turned.onRow) =
          .ok moved ∧
        lopsided.reduce {} = .ok primes ∧
        moved.reduce {} = .ok (turned.onRows primes) := by
  have hRows : lopsided.isEmpty = false := by decide +kernel
  exact ⟨hRows, exists_reduce_onRows {} {} hRows turned⟩

end Table

end TwoLevel
