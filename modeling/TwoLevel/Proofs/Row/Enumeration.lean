import TwoLevel.Proofs.Row.Numbering

/-
  This file shows that the cursor of a row runs through
  exactly the numbers that the row's masks admit, in ascending
  order, and is finished after them.

  The subsets of the free digits are numbered by `freeDigits`:
  the digits of a rank are dealt out to the free positions.
  Moving the cursor on is adding one to the rank.

  Key definitions include:
    * `Row.freeDigits`
    * `Row.nth`

  Main theorems:
    * `freeDigits_succ`
    * `take_ofRow`
    * `nth_lt_nth`
    * `mem_assignments_iff`
    * `mem_assignments_iff_satisfiedBy`
-/

namespace TwoLevel

namespace Value

/- The digit to which a value fixes its variable. -/
def digit : Value → Nat
  | one => 1
  | _ => 0

theorem digit_lt
    (v : Value) :
    v.digit < 2 := by
  cases v <;> decide

theorem accepts_testBit_zero_iff
    {v : Value}
    (hv : v.isLiteral = true)
    (index : Nat) :
    v.accepts (index.testBit 0) = true ↔
      index % 2 = v.digit := by
  rw [Nat.testBit_zero]
  cases v with
  | zero =>
      simp only [accepts, digit, Bool.not_eq_true',
        decide_eq_false_iff_not]
      omega
  | one => simp only [accepts, digit, decide_eq_true_eq]
  | dontCare => cases hv

end Value

namespace Row

------------------------------------------------------------
-- Subsets of the Free Digits
------------------------------------------------------------

/- Deal out the digits of a rank, from the lowest value on. -/
def dealDigits : List Value → Nat → Nat
  | [], _ => 0
  | .dontCare :: vs, rank =>
      2 * dealDigits vs (rank / 2) + rank % 2
  | .zero :: vs, rank => 2 * dealDigits vs rank
  | .one :: vs, rank => 2 * dealDigits vs rank

/- The subset of the free digits that has the given rank. -/
def freeDigits
    (row : Row)
    (rank : Nat) : Nat :=
  dealDigits row.values.reverse rank

/- The assignment of the given rank. -/
def nth
    (row : Row)
    (rank : Nat) : Nat :=
  row.masks.value ||| row.freeDigits rank

theorem freeDigits_concat_literal
    {v : Value}
    (hv : v.isLiteral = true)
    (vs : List Value)
    (rank : Nat) :
    freeDigits ⟨vs ++ [v]⟩ rank =
      2 * freeDigits ⟨vs⟩ rank := by
  unfold freeDigits
  rw [List.reverse_append]
  cases v with
  | zero => rfl
  | one => rfl
  | dontCare => cases hv

theorem freeDigits_concat_dontCare
    (vs : List Value)
    (rank : Nat) :
    freeDigits ⟨vs ++ [.dontCare]⟩ rank =
      2 * freeDigits ⟨vs⟩ (rank / 2) + rank % 2 := by
  unfold freeDigits
  rw [List.reverse_append]
  rfl

theorem dontCares_concat_literal
    {v : Value}
    (hv : v.isLiteral = true)
    (vs : List Value) :
    dontCares ⟨vs ++ [v]⟩ = dontCares ⟨vs⟩ := by
  simp [dontCares, hv]

theorem dontCares_concat_dontCare
    (vs : List Value) :
    dontCares ⟨vs ++ [.dontCare]⟩ = dontCares ⟨vs⟩ + 1 := by
  simp [dontCares]

theorem care_concat_literal
    {v : Value}
    (hv : v.isLiteral = true)
    (vs : List Value) :
    (masks ⟨vs ++ [v]⟩).care =
      2 * (masks ⟨vs⟩).care + 1 := by
  rw [masks_concat]
  cases v with
  | zero => rfl
  | one => rfl
  | dontCare => cases hv

theorem care_concat_dontCare
    (vs : List Value) :
    (masks ⟨vs ++ [.dontCare]⟩).care =
      2 * (masks ⟨vs⟩).care := by
  rw [masks_concat]
  rfl

private theorem free_ofRow_concat
    (vs : List Value)
    (v : Value)
    {digit : Nat}
    (hDigit : digit < 2)
    (hCare :
      (masks ⟨vs ++ [v]⟩).care =
        2 * (masks ⟨vs⟩).care + digit) :
    (Cursor.ofRow ⟨vs ++ [v]⟩).free =
      2 * (Cursor.ofRow ⟨vs⟩).free + (1 - digit) := by
  have hPos := assignmentCount_pos (arity ⟨vs⟩)
  have hAll :
      assignmentCount (arity ⟨vs⟩ + 1) - 1 =
        2 * (assignmentCount (arity ⟨vs⟩) - 1) + 1 := by
    rw [assignmentCount_succ]
    omega
  have hFlip : (1 + digit) % 2 = 1 - digit := by omega
  show
    (assignmentCount (arity ⟨vs ++ [v]⟩) - 1) ^^^
        (masks ⟨vs ++ [v]⟩).care = _
  rw [hCare, arity_concat, hAll,
    xor_of_digits (by omega) hDigit, hFlip]
  rfl

theorem free_ofRow_concat_literal
    {v : Value}
    (hv : v.isLiteral = true)
    (vs : List Value) :
    (Cursor.ofRow ⟨vs ++ [v]⟩).free =
      2 * (Cursor.ofRow ⟨vs⟩).free :=
  free_ofRow_concat vs v Nat.one_lt_two
    (care_concat_literal hv vs)

theorem free_ofRow_concat_dontCare
    (vs : List Value) :
    (Cursor.ofRow ⟨vs ++ [.dontCare]⟩).free =
      2 * (Cursor.ofRow ⟨vs⟩).free + 1 :=
  free_ofRow_concat vs .dontCare Nat.zero_lt_two
    (care_concat_dontCare vs)

------------------------------------------------------------
-- Moving On
------------------------------------------------------------

/- The fixed digits do not disturb a subset of the others. -/
theorem freeDigits_add_care_and_free
    (row : Row)
    (rank : Nat) :
    (row.freeDigits rank + row.masks.care) &&&
        (Cursor.ofRow row).free =
      row.freeDigits rank := by
  induction row using concatInduction
      generalizing rank with
  | nil => simp [freeDigits, dealDigits, masks]
  | literal vs v hv ih =>
      have hHalf :
          (2 * freeDigits ⟨vs⟩ rank +
              (2 * (masks ⟨vs⟩).care + 1)) / 2 =
            freeDigits ⟨vs⟩ rank + (masks ⟨vs⟩).care := by
        omega
      rw [freeDigits_concat_literal hv,
        care_concat_literal hv,
        free_ofRow_concat_literal hv, and_double, hHalf,
        ih]
  | dontCare vs ih =>
      have hHalf :
          (2 * freeDigits ⟨vs⟩ (rank / 2) + rank % 2 +
              2 * (masks ⟨vs⟩).care) / 2 =
            freeDigits ⟨vs⟩ (rank / 2) +
              (masks ⟨vs⟩).care := by
        omega
      rw [freeDigits_concat_dontCare,
        care_concat_dontCare, free_ofRow_concat_dontCare,
        and_double_succ, hHalf, ih]
      omega

/-
  Adding one on top of the fixed digits carries through them,
  so the next subset is the one of the next rank.
-/
theorem freeDigits_succ
    (row : Row)
    {rank : Nat}
    (hRank : rank + 1 < assignmentCount row.dontCares) :
    (row.freeDigits rank + row.masks.care + 1) &&&
        (Cursor.ofRow row).free =
      row.freeDigits (rank + 1) := by
  induction row using concatInduction
      generalizing rank with
  | nil =>
      have hOne : rank + 1 < 1 := hRank
      omega
  | literal vs v hv ih =>
      rw [dontCares_concat_literal hv] at hRank
      have hHalf :
          (2 * freeDigits ⟨vs⟩ rank +
              (2 * (masks ⟨vs⟩).care + 1) + 1) / 2 =
            freeDigits ⟨vs⟩ rank +
              (masks ⟨vs⟩).care + 1 := by
        omega
      rw [freeDigits_concat_literal hv,
        freeDigits_concat_literal hv,
        care_concat_literal hv,
        free_ofRow_concat_literal hv, and_double, hHalf,
        ih hRank]
  | dontCare vs ih =>
      rw [dontCares_concat_dontCare,
        assignmentCount_succ] at hRank
      rw [freeDigits_concat_dontCare,
        freeDigits_concat_dontCare, care_concat_dontCare,
        free_ofRow_concat_dontCare, and_double_succ]
      rcases Nat.mod_two_eq_zero_or_one rank with
        hEven | hOdd
      · -- The lowest free digit is clear: no carry.
        have hHalf :
            (2 * freeDigits ⟨vs⟩ (rank / 2) + rank % 2 +
                2 * (masks ⟨vs⟩).care + 1) / 2 =
              freeDigits ⟨vs⟩ (rank / 2) +
                (masks ⟨vs⟩).care := by
          omega
        have hRest : (rank + 1) / 2 = rank / 2 := by omega
        rw [hHalf, hRest, freeDigits_add_care_and_free]
        omega
      · have hHalf :
            (2 * freeDigits ⟨vs⟩ (rank / 2) + rank % 2 +
                2 * (masks ⟨vs⟩).care + 1) / 2 =
              freeDigits ⟨vs⟩ (rank / 2) +
                (masks ⟨vs⟩).care + 1 := by
          omega
        have hRest :
            (rank + 1) / 2 = rank / 2 + 1 := by
          omega
        rw [hHalf, ih (by omega), hRest]
        omega

theorem freeDigits_zero
    (row : Row) :
    row.freeDigits 0 = 0 := by
  induction row using concatInduction with
  | nil => rfl
  | literal vs v hv ih =>
      rw [freeDigits_concat_literal hv, ih]
  | dontCare vs ih =>
      rw [freeDigits_concat_dontCare, Nat.zero_div, ih]

/- The last subset is the one of all free digits. -/
theorem freeDigits_last
    (row : Row) :
    row.freeDigits (assignmentCount row.dontCares - 1) =
      (Cursor.ofRow row).free := by
  induction row using concatInduction with
  | nil => rfl
  | literal vs v hv ih =>
      rw [dontCares_concat_literal hv,
        freeDigits_concat_literal hv,
        free_ofRow_concat_literal hv, ih]
  | dontCare vs ih =>
      have hPos := assignmentCount_pos (dontCares ⟨vs⟩)
      have hHalf :
          (2 * assignmentCount (dontCares ⟨vs⟩) - 1) / 2 =
            assignmentCount (dontCares ⟨vs⟩) - 1 := by
        omega
      rw [dontCares_concat_dontCare,
        assignmentCount_succ, freeDigits_concat_dontCare,
        free_ofRow_concat_dontCare, hHalf, ih]
      omega

------------------------------------------------------------
-- Assignments by Rank
------------------------------------------------------------

theorem value_concat
    (vs : List Value)
    (v : Value) :
    (masks ⟨vs ++ [v]⟩).value =
      2 * (masks ⟨vs⟩).value + v.digit := by
  rw [masks_concat]
  cases v <;> rfl

theorem nth_concat_literal
    {v : Value}
    (hv : v.isLiteral = true)
    (vs : List Value)
    (rank : Nat) :
    nth ⟨vs ++ [v]⟩ rank = 2 * nth ⟨vs⟩ rank + v.digit := by
  unfold nth
  have hOr :=
    or_of_digits (m := (masks ⟨vs⟩).value)
      (n := freeDigits ⟨vs⟩ rank)
      v.digit_lt Nat.zero_lt_two
  rw [Nat.add_zero, Nat.max_zero] at hOr
  rw [value_concat, freeDigits_concat_literal hv, hOr]

theorem nth_concat_dontCare
    (vs : List Value)
    (rank : Nat) :
    nth ⟨vs ++ [.dontCare]⟩ rank =
      2 * nth ⟨vs⟩ (rank / 2) + rank % 2 := by
  unfold nth
  have hOr :=
    or_of_digits (m := (masks ⟨vs⟩).value)
      (n := freeDigits ⟨vs⟩ (rank / 2))
      Nat.zero_lt_two (Nat.mod_lt rank Nat.zero_lt_two)
  rw [Nat.zero_max] at hOr
  rw [value_concat, freeDigits_concat_dontCare]
  exact hOr

/- Assignments of higher rank have higher numbers. -/
theorem nth_lt_nth
    (row : Row)
    {i j : Nat}
    (hij : i < j)
    (hj : j < assignmentCount row.dontCares) :
    row.nth i < row.nth j := by
  induction row using concatInduction
      generalizing i j with
  | nil =>
      have hOne : j < 1 := hj
      omega
  | literal vs v hv ih =>
      rw [dontCares_concat_literal hv] at hj
      have hLt := ih hij hj
      rw [nth_concat_literal hv, nth_concat_literal hv]
      omega
  | dontCare vs ih =>
      rw [dontCares_concat_dontCare,
        assignmentCount_succ] at hj
      rw [nth_concat_dontCare, nth_concat_dontCare]
      by_cases hHalf : i / 2 = j / 2
      · rw [hHalf]
        omega
      · have hLt := ih (i := i / 2) (j := j / 2)
          (by omega) (by omega)
        omega

private theorem exists_nth_concat_literal_iff
    {vs : List Value}
    {v : Value}
    (hv : v.isLiteral = true)
    {index : Nat} :
    (∃ rank,
      rank < assignmentCount (dontCares ⟨vs ++ [v]⟩) ∧
        nth ⟨vs ++ [v]⟩ rank = index) ↔
      (∃ rank, rank < assignmentCount (dontCares ⟨vs⟩) ∧
        nth ⟨vs⟩ rank = index / 2) ∧
        index % 2 = v.digit := by
  have hDigit := v.digit_lt
  rw [dontCares_concat_literal hv]
  constructor
  · intro hGiven
    rcases hGiven with ⟨rank, hRank, rfl⟩
    rw [nth_concat_literal hv]
    exact ⟨⟨rank, hRank, by omega⟩, by omega⟩
  · intro hGiven
    rcases hGiven with ⟨⟨rank, hRank, hNth⟩, hLow⟩
    refine ⟨rank, hRank, ?_⟩
    rw [nth_concat_literal hv, hNth]
    omega

private theorem exists_nth_concat_dontCare_iff
    {vs : List Value}
    {index : Nat} :
    (∃ rank,
      rank <
          assignmentCount (dontCares ⟨vs ++ [.dontCare]⟩) ∧
        nth ⟨vs ++ [.dontCare]⟩ rank = index) ↔
      ∃ rank, rank < assignmentCount (dontCares ⟨vs⟩) ∧
        nth ⟨vs⟩ rank = index / 2 := by
  rw [dontCares_concat_dontCare, assignmentCount_succ]
  constructor
  · intro hGiven
    rcases hGiven with ⟨rank, hRank, rfl⟩
    rw [nth_concat_dontCare]
    exact ⟨rank / 2, by omega, by omega⟩
  · intro hGiven
    rcases hGiven with ⟨rank, hRank, hNth⟩
    have hHalf : (2 * rank + index % 2) / 2 = rank := by
      omega
    refine ⟨2 * rank + index % 2, by omega, ?_⟩
    rw [nth_concat_dontCare, hHalf, hNth]
    omega

/- The ranks reach exactly the numbers that are admitted. -/
theorem exists_nth_eq_iff
    (row : Row)
    (index : Nat) :
    (∃ rank, rank < assignmentCount row.dontCares ∧
        row.nth rank = index) ↔
      index < assignmentCount row.arity ∧
        row.masks.admits index = true := by
  induction row using concatInduction
      generalizing index with
  | nil =>
      constructor
      · intro hGiven
        rcases hGiven with ⟨rank, _, rfl⟩
        have hZero : nth ⟨[]⟩ rank = 0 := by
          simp [nth, freeDigits, dealDigits, masks]
        rw [hZero]
        exact ⟨assignmentCount_pos 0, rfl⟩
      · intro hGiven
        rcases hGiven with ⟨hLt, _⟩
        have hOne : index < 1 := hLt
        refine ⟨0, Nat.zero_lt_one, ?_⟩
        show 0 = index
        omega
  | literal vs v hv ih =>
      have hHalf :
          index < 2 * assignmentCount (arity ⟨vs⟩) ↔
            index / 2 < assignmentCount (arity ⟨vs⟩) := by
        omega
      rw [exists_nth_concat_literal_iff hv, ih,
        arity_concat, assignmentCount_succ,
        admits_masks_concat, Bool.and_eq_true,
        Value.accepts_testBit_zero_iff hv, hHalf, and_assoc]
  | dontCare vs ih =>
      have hHalf :
          index < 2 * assignmentCount (arity ⟨vs⟩) ↔
            index / 2 < assignmentCount (arity ⟨vs⟩) := by
        omega
      rw [exists_nth_concat_dontCare_iff, ih,
        arity_concat, assignmentCount_succ,
        admits_masks_concat, Bool.and_eq_true, hHalf]
      simp [Value.accepts]

------------------------------------------------------------
-- The Cursor of a Row
------------------------------------------------------------

/- The place before the assignment of the given rank. -/
def cursorAt
    (row : Row)
    (rank : Nat) : Cursor :=
  { Cursor.ofRow row with subset := row.freeDigits rank }

theorem cursorAt_zero
    (row : Row) :
    row.cursorAt 0 = Cursor.ofRow row := by
  rw [cursorAt, freeDigits_zero]
  rfl

theorem freeDigits_ne_free
    (row : Row)
    {rank : Nat}
    (hRank : rank + 1 < assignmentCount row.dontCares) :
    row.freeDigits rank ≠ (Cursor.ofRow row).free := by
  intro h
  have hLt :=
    row.nth_lt_nth
      (i := rank)
      (j := assignmentCount row.dontCares - 1)
      (by omega) (by omega)
  rw [nth, nth, freeDigits_last, h] at hLt
  omega

theorem next_cursorAt
    (row : Row)
    {rank : Nat}
    (hRank : rank + 1 < assignmentCount row.dontCares) :
    (row.cursorAt rank).next =
      (some (row.nth rank), row.cursorAt (rank + 1)) := by
  have hSucc :
      (row.cursorAt rank).successor =
        row.freeDigits (rank + 1) :=
    row.freeDigits_succ hRank
  have hNe :
      ¬ (row.cursorAt rank).subset =
        (row.cursorAt rank).free :=
    row.freeDigits_ne_free hRank
  unfold Cursor.next
  rw [if_neg (by simp [cursorAt, Cursor.ofRow]),
    if_neg hNe, hSucc]
  rfl

theorem next_cursorAt_last
    (row : Row)
    {rank : Nat}
    (hRank : rank + 1 = assignmentCount row.dontCares) :
    (row.cursorAt rank).next =
      (some (row.nth rank),
        { row.cursorAt rank with finished := true }) := by
  have hLast : assignmentCount row.dontCares - 1 = rank := by
    omega
  have hEq :
      (row.cursorAt rank).subset =
        (row.cursorAt rank).free := by
    have hFree := row.freeDigits_last
    rw [hLast] at hFree
    exact hFree
  unfold Cursor.next
  rw [if_neg (by simp [cursorAt, Cursor.ofRow]), if_pos hEq]
  rfl

/-
  By induction on the number of ranks left: from a rank on,
  the cursor yields the assignments of that rank and of all
  higher ones, and then it is finished.
-/
theorem take_cursorAt
    (row : Row)
    (left : Nat)
    {rank : Nat}
    (hRank :
      rank + left + 1 = assignmentCount row.dontCares) :
    (row.cursorAt rank).take (left + 1) =
      ((List.range' rank (left + 1)).map row.nth,
        { row.cursorAt (rank + left) with
          finished := true }) := by
  induction left generalizing rank with
  | zero =>
      rw [Cursor.take, row.next_cursorAt_last hRank]
      rfl
  | succ left ih =>
      have hNext :
          rank + 1 + left + 1 =
            assignmentCount row.dontCares := by
        omega
      have hRest := ih hNext
      have hSum : rank + 1 + left = rank + (left + 1) := by
        omega
      rw [Cursor.take, row.next_cursorAt (by omega)]
      simp only [hRest, hSum]
      rfl

/- All assignments are yielded, and then nothing more. -/
theorem take_ofRow
    (row : Row) :
    (Cursor.ofRow row).take (assignmentCount row.dontCares) =
      ((List.range (assignmentCount row.dontCares)).map
          row.nth,
        { row.cursorAt (assignmentCount row.dontCares - 1)
          with finished := true }) := by
  have hPos := assignmentCount_pos row.dontCares
  have hCount :
      assignmentCount row.dontCares - 1 + 1 =
        assignmentCount row.dontCares := by
    omega
  have hRank :
      0 + (assignmentCount row.dontCares - 1) + 1 =
        assignmentCount row.dontCares := by
    omega
  have hTake :=
    row.take_cursorAt (assignmentCount row.dontCares - 1)
      hRank
  rw [hCount, cursorAt_zero, Nat.zero_add] at hTake
  rw [hTake, List.range_eq_range']

theorem assignments_eq_map_nth
    (row : Row) :
    row.assignments =
      (List.range (assignmentCount row.dontCares)).map
        row.nth := by
  rw [assignments, take_ofRow]

theorem mem_assignments_iff
    {row : Row}
    {index : Nat} :
    index ∈ row.assignments ↔
      index < assignmentCount row.arity ∧
        row.masks.admits index = true := by
  rw [assignments_eq_map_nth, List.mem_map,
    ← exists_nth_eq_iff]
  simp only [List.mem_range]

/- A row enumerates the assignments that satisfy it. -/
theorem mem_assignments_iff_satisfiedBy
    {row : Row}
    {index : Nat} :
    index ∈ row.assignments ↔
      index < assignmentCount row.arity ∧
        row.satisfiedBy (bitsOfIndex index row.arity) =
          true := by
  rw [mem_assignments_iff, admits_masks]

end Row

end TwoLevel
