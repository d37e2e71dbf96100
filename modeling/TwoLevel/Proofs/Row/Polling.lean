import TwoLevel.Proofs.Row.WordCursor

/-
  This file says what comes of polling the cursor of a row.
  The assignments that satisfy the row are answered, each of
  them once and in ascending order. After that every poll is
  answered by nothing, however many of them there are. A
  cursor in words gives the same answers.

  Key definitions include:
    * `polls`
    * `Row.Enumerates`

  Main theorems:
    * `polls_of_take`
    * `polls_ofRow`
    * `polls_of_standsAt`
    * `enumerates_assignments`
    * `polls_enumerate_assignments`
-/

namespace TwoLevel

/- The answers to so many polls, one after the other. -/
def polls
    {σ α : Type}
    (next : σ → Option α × σ) : Nat → σ → List (Option α)
  | 0, _ => []
  | count + 1, cursor =>
      (next cursor).1 :: polls next count (next cursor).2

namespace Row

------------------------------------------------------------
-- Polling a Cursor
------------------------------------------------------------

section Cursors

variable {cursor last : Cursor}

/- A finished cursor has nothing left to answer. -/
theorem polls_of_finished
    (hFinished : cursor.finished = true)
    (count : Nat) :
    polls Cursor.next count cursor =
      List.replicate count none := by
  induction count with
  | zero => rfl
  | succ count ih =>
      rw [polls, Cursor.next_of_finished hFinished, ih,
        List.replicate_succ]

/-
  What is taken is what is answered, as long as no poll is
  answered by nothing.
-/
theorem polls_of_take
    {limit : Nat}
    {indices : List Nat}
    (hTake : cursor.take limit = (indices, last))
    (hLength : indices.length = limit)
    (more : Nat) :
    polls Cursor.next (limit + more) cursor =
      indices.map some ++ polls Cursor.next more last := by
  induction limit generalizing cursor indices with
  | zero =>
      cases hTake
      rw [Nat.zero_add]
      rfl
  | succ limit ih =>
      rw [Cursor.take] at hTake
      rcases hNext : cursor.next with ⟨answer, after⟩
      rw [hNext] at hTake
      cases answer with
      | none =>
          cases hTake
          cases hLength
      | some index =>
          rcases hRest : after.take limit with ⟨rest, final⟩
          simp only [hRest] at hTake
          cases hTake
          rw [Nat.add_right_comm, polls, hNext,
            ih hRest (Nat.succ.inj hLength)]
          rfl

end Cursors

theorem length_assignments
    (row : Row) :
    row.assignments.length =
      assignmentCount row.dontCares := by
  simp [assignments_eq_map_nth]

/- All assignments are answered, and then nothing. -/
theorem polls_ofRow
    (row : Row)
    (more : Nat) :
    polls Cursor.next (row.assignments.length + more)
        (Cursor.ofRow row) =
      row.assignments.map some ++
        List.replicate more none := by
  have hTake := row.take_ofRow
  rw [← assignments_eq_map_nth] at hTake
  rw [row.length_assignments,
    polls_of_take hTake row.length_assignments,
    polls_of_finished rfl]

------------------------------------------------------------
-- Polling in Words
------------------------------------------------------------

/-
  By induction on the polls, one step after the other: what a
  cursor in words answers is what a cursor answers.
-/
theorem polls_of_standsAt
    {arity : Nat}
    {word : WordCursor}
    {cursor : Cursor}
    (h : word.StandsAt arity cursor)
    (count : Nat) :
    (polls WordCursor.next count word).map
        (Option.map UInt64.toNat) =
      polls Cursor.next count cursor := by
  induction count generalizing word cursor with
  | zero => rfl
  | succ count ih =>
      rcases h.next with ⟨hAnswer, hAfter⟩
      rw [polls, polls, List.map_cons, hAnswer, ih hAfter]

------------------------------------------------------------
-- The Assignments of a Row
------------------------------------------------------------

/- A row enumerates the assignments by which it is met. -/
theorem mem_assignments_iff_metBy
    {row : Row}
    {index : Nat} :
    index ∈ row.assignments ↔
      index < assignmentCount row.arity ∧
        row.MetBy (ofIndex index row.arity) := by
  rw [metBy_ofIndex_iff]
  exact mem_assignments_iff_satisfiedBy

/-
  The numbers of the assignments that satisfy a row, each of
  them once and in order.
-/
structure Enumerates
    (row : Row)
    (indices : List Nat) : Prop where
  ascending : indices.Pairwise (· < ·)
  mem_iff :
    ∀ index, index ∈ indices ↔
      index < assignmentCount row.arity ∧
        row.MetBy (ofIndex index row.arity)
  length_eq :
    indices.length = assignmentCount row.dontCares

theorem enumerates_assignments
    (row : Row) :
    row.Enumerates row.assignments where
  ascending := by
    rw [assignments_eq_map_nth, List.pairwise_map]
    apply List.pairwise_lt_range.imp_of_mem
    intro i j _ hj hij
    exact row.nth_lt_nth hij (List.mem_range.1 hj)
  mem_iff := fun _ => mem_assignments_iff_metBy
  length_eq := row.length_assignments

/-
  Polling a cursor enumerates the assignments of its row and
  stops for good after them. A cursor in words, which have a
  digit more than there may be variables, does the same.
-/
theorem polls_enumerate_assignments
    {row : Row}
    (hLe : row.arity ≤ 63) :
    ∃ indices, row.Enumerates indices ∧
      row.assignments = indices ∧
      ∀ more,
        polls Cursor.next (indices.length + more)
            (Cursor.ofRow row) =
          indices.map some ++ List.replicate more none ∧
        (polls WordCursor.next (indices.length + more)
            (WordCursor.ofRow row)).map
            (Option.map UInt64.toNat) =
          indices.map some ++ List.replicate more none := by
  have hStands :=
    WordCursor.standsAt_ofRow (Nat.le_succ_of_le hLe)
  refine ⟨row.assignments, row.enumerates_assignments, rfl,
    fun more => ⟨row.polls_ofRow more, ?_⟩⟩
  rw [polls_of_standsAt hStands, row.polls_ofRow]

/- The assignments of `x1 & !x3` among four variables. -/
theorem polls_enumerate_conjunction :
    arity ⟨[.one, .dontCare, .zero, .dontCare]⟩ ≤ 63 ∧
      Enumerates ⟨[.one, .dontCare, .zero, .dontCare]⟩
        [8, 9, 12, 13] ∧
      ∀ more,
        (polls WordCursor.next (4 + more)
            (WordCursor.ofRow
              ⟨[.one, .dontCare, .zero, .dontCare]⟩)).map
            (Option.map UInt64.toNat) =
          [some 8, some 9, some 12, some 13] ++
            List.replicate more none := by
  have hLe :
      arity ⟨[.one, .dontCare, .zero, .dontCare]⟩ ≤ 63 := by
    decide
  rcases polls_enumerate_assignments hLe with
    ⟨indices, hEnumerates, hIndices, hPolls⟩
  have hList : indices = [8, 9, 12, 13] := by
    rw [← hIndices]
    decide +kernel
  subst hList
  exact ⟨hLe, hEnumerates, fun more => (hPolls more).2⟩

end Row

end TwoLevel
