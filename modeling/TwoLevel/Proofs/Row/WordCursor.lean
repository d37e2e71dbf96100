import Mathlib.Tactic.Ring
import TwoLevel.BitSet.Word
import TwoLevel.Proofs.Row.Enumeration

/-
  This file enumerates the assignments of a row in words of 64
  digits, whose arithmetic wraps around. The masks are put
  together one position after the other, each setting a digit
  counted from the other end. The next subset of the free
  digits is what remains of them when all of them have been
  subtracted from the current subset.

  For up to 64 variables this comes to the same as counting
  on top of the fixed digits. The free and the fixed digits
  together are all digits of the variables, so subtracting the
  ones is adding one and the others, up to a multiple of the
  number of assignments. That multiple lies above the free
  digits and is masked out.

  Key definitions include:
    * `Row.wordMasks`
    * `Row.WordCursor`
    * `Row.WordCursor.next`
    * `Row.WordCursor.StandsAt`

  Main theorems:
    * `toNat_wordMasks`
    * `care_add_free`
    * `toNat_successor`
    * `standsAt_ofRow`
    * `StandsAt.next`
-/

namespace TwoLevel

namespace Row

------------------------------------------------------------
-- Masks in Words
------------------------------------------------------------

/- The masks of a row, kept in words. -/
structure WordMasks where
  care : UInt64
  value : UInt64
  deriving DecidableEq

/- Set the digit of the variable at a position. -/
def WordMasks.mark
    (arity : Nat)
    (masks : WordMasks) : Value × Nat → WordMasks
  | (.zero, position) =>
      { care :=
          masks.care ||| Word.single (arity - 1 - position)
        value := masks.value }
  | (.one, position) =>
      { care :=
          masks.care ||| Word.single (arity - 1 - position)
        value :=
          masks.value ||| Word.single (arity - 1 - position) }
  | (.dontCare, _) => masks

/- The masks of a row, one position after the other. -/
def wordMasks
    (row : Row) : WordMasks :=
  row.values.zipIdx.foldl (WordMasks.mark row.arity) ⟨0, 0⟩

/- The word in which the digits of all variables are set. -/
def allDigits
    (arity : Nat) : UInt64 :=
  if arity = 0 then 0
  else (0 - 1) >>> (64 - arity).toUInt64

/- A digit that is set below those that are there. -/
theorem toNat_or_single
    {word : UInt64}
    {digits place : Nat}
    (hPlace : place < 64)
    (hWord :
      word.toNat = assignmentCount (place + 1) * digits) :
    (word ||| Word.single place).toNat =
      assignmentCount place * (2 * digits + 1) := by
  have hSingle :
      (Word.single place).toNat = assignmentCount place := by
    rw [Word.toNat_single hPlace, Nat.one_shiftLeft]
    rfl
  have hLt : assignmentCount place < assignmentCount (place + 1) :=
    Nat.pow_lt_pow_right Nat.one_lt_two (Nat.lt_succ_self place)
  have hOr :
      assignmentCount (place + 1) * digits +
          assignmentCount place =
        assignmentCount (place + 1) * digits |||
          assignmentCount place :=
    Nat.two_pow_add_eq_or_of_lt hLt digits
  rw [UInt64.toNat_or, hWord, hSingle, ← hOr,
    assignmentCount_succ]
  ring

/-
  By induction on the positions that are left. The masks of
  those that are done stand in the digits above.
-/
private theorem toNat_foldl_mark
    {arity start : Nat}
    {vs : List Value}
    {word : WordMasks}
    {masks : Masks}
    (hLe : arity ≤ 64)
    (hLength : start + vs.length = arity)
    (hCare :
      word.care.toNat =
        assignmentCount vs.length * masks.care)
    (hValue :
      word.value.toNat =
        assignmentCount vs.length * masks.value) :
    let last := (vs.zipIdx start).foldl (WordMasks.mark arity) word
    last.care.toNat = (vs.foldl Masks.push masks).care ∧
      last.value.toNat =
        (vs.foldl Masks.push masks).value := by
  induction vs generalizing start word masks with
  | nil =>
      simpa using And.intro hCare hValue
  | cons v vs ih =>
      rw [List.length_cons] at hLength hCare hValue
      have hPlace : arity - 1 - start = vs.length := by omega
      have hLt : vs.length < 64 := by omega
      have hSkip :
          ∀ {w : UInt64} {digits : Nat},
            w.toNat =
                assignmentCount (vs.length + 1) * digits →
              w.toNat =
                assignmentCount vs.length * (2 * digits) := by
        intro w digits hw
        rw [hw, assignmentCount_succ]
        ring
      rw [List.zipIdx_cons, List.foldl_cons, List.foldl_cons]
      apply ih (by omega)
      · cases v with
        | zero =>
            simp only [WordMasks.mark, hPlace, Masks.push]
            exact toNat_or_single hLt hCare
        | one =>
            simp only [WordMasks.mark, hPlace, Masks.push]
            exact toNat_or_single hLt hCare
        | dontCare => exact hSkip hCare
      · cases v with
        | zero => exact hSkip hValue
        | one =>
            simp only [WordMasks.mark, hPlace, Masks.push]
            exact toNat_or_single hLt hValue
        | dontCare => exact hSkip hValue

/- The words of the masks hold the masks. -/
theorem toNat_wordMasks
    {row : Row}
    (hLe : row.arity ≤ 64) :
    row.wordMasks.care.toNat = row.masks.care ∧
      row.wordMasks.value.toNat = row.masks.value :=
  toNat_foldl_mark hLe (Nat.zero_add _) (Nat.mul_zero _).symm
    (Nat.mul_zero _).symm

theorem testBit_assignmentCount_sub_one
    (arity place : Nat) :
    (assignmentCount arity - 1).testBit place =
      decide (place < arity) :=
  Nat.testBit_two_pow_sub_one arity place

theorem testBit_of_lt_assignmentCount
    {digits arity place : Nat}
    (hDigits : digits < assignmentCount arity)
    (hPlace : arity ≤ place) :
    digits.testBit place = false :=
  Nat.testBit_lt_two_pow
    (Nat.lt_of_lt_of_le hDigits
      (Nat.pow_le_pow_right Nat.two_pos hPlace))

theorem toNat_allDigits
    {arity : Nat}
    (hLe : arity ≤ 64) :
    (allDigits arity).toNat = assignmentCount arity - 1 := by
  unfold allDigits
  split
  · rename_i hZero
    rw [hZero]
    rfl
  · have hShift :
        (64 - arity).toUInt64.toNat % 64 = 64 - arity := by
      rw [Nat.toUInt64_eq, UInt64.toNat_ofNat']
      omega
    have hAll :
        ((0 - 1 : UInt64)).toNat = assignmentCount 64 - 1 :=
      rfl
    rw [UInt64.toNat_shiftRight, hShift, hAll]
    apply Nat.eq_of_testBit_eq
    intro place
    rw [Nat.testBit_shiftRight,
      testBit_assignmentCount_sub_one,
      testBit_assignmentCount_sub_one, decide_eq_decide]
    omega

/- The free digits are those that are not fixed. -/
theorem toNat_allDigits_and_not
    {arity : Nat}
    {care : UInt64}
    (hLe : arity ≤ 64)
    (hCare : care.toNat < assignmentCount arity) :
    (allDigits arity &&& ~~~care).toNat =
      (assignmentCount arity - 1) ^^^ care.toNat := by
  apply Nat.eq_of_testBit_eq
  intro place
  rw [UInt64.toNat_and, toNat_allDigits hLe,
    Nat.testBit_and, Nat.testBit_xor,
    testBit_assignmentCount_sub_one]
  by_cases hPlace : place < arity
  · have hLt : place < 64 := by omega
    rw [← Word.bit_eq_testBit hLt, Word.bit_not hLt,
      Word.bit_eq_testBit hLt]
    simp [hPlace]
  · have hClear :=
      testBit_of_lt_assignmentCount hCare
        (Nat.le_of_not_lt hPlace)
    simp [hPlace, hClear]

------------------------------------------------------------
-- Subtracting the Free Digits
------------------------------------------------------------

/- Every digit of a variable is fixed or free. -/
theorem care_add_free
    (row : Row) :
    row.masks.care + (Cursor.ofRow row).free + 1 =
      assignmentCount row.arity := by
  induction row using concatInduction with
  | nil => rfl
  | literal vs v hv ih =>
      rw [care_concat_literal hv, free_ofRow_concat_literal hv,
        arity_concat, assignmentCount_succ, ← ih]
      ring
  | dontCare vs ih =>
      rw [care_concat_dontCare, free_ofRow_concat_dontCare,
        arity_concat, assignmentCount_succ, ← ih]
      ring

/- Digits above a mask do not show through it. -/
theorem mod_and_of_lt
    {mask arity : Nat}
    (hMask : mask < assignmentCount arity)
    (digits : Nat) :
    digits % assignmentCount arity &&& mask =
      digits &&& mask := by
  apply Nat.eq_of_testBit_eq
  intro place
  have hMod :
      (digits % assignmentCount arity).testBit place =
        (decide (place < arity) && digits.testBit place) :=
    Nat.testBit_mod_two_pow digits arity place
  rw [Nat.testBit_and, Nat.testBit_and, hMod]
  by_cases hPlace : place < arity
  · simp [hPlace]
  · rw [testBit_of_lt_assignmentCount hMask
      (Nat.le_of_not_lt hPlace)]
    simp

/-
  Subtracting the free digits, with a borrow from beyond the
  word, is adding one and the fixed digits. The number of
  assignments divides what is borrowed.
-/
theorem toNat_sub_and
    {arity care : Nat}
    {subset free : UInt64}
    (hLe : arity ≤ 64)
    (hDigits :
      care + free.toNat + 1 = assignmentCount arity) :
    ((subset - free) &&& free).toNat =
      (subset.toNat + care + 1) &&& free.toNat := by
  have hFree : free.toNat < assignmentCount arity := by omega
  have hBorrow :
      assignmentCount 64 =
        assignmentCount arity * assignmentCount (64 - arity) := by
    have hSum : arity + (64 - arity) = 64 := by omega
    have hPow :
        assignmentCount (arity + (64 - arity)) =
          assignmentCount arity *
            assignmentCount (64 - arity) :=
      Nat.pow_add 2 arity (64 - arity)
    rw [hSum] at hPow
    exact hPow
  have hDvd : assignmentCount arity ∣ assignmentCount 64 :=
    ⟨_, hBorrow⟩
  have hSub :
      (subset - free).toNat =
        (assignmentCount 64 - free.toNat + subset.toNat) %
          assignmentCount 64 :=
    UInt64.toNat_sub subset free
  have hCongr :
      (assignmentCount 64 - free.toNat + subset.toNat) %
          assignmentCount arity =
        (subset.toNat + care + 1) %
          assignmentCount arity := by
    rcases Nat.exists_eq_add_one_of_ne_zero
        (Nat.ne_of_gt (assignmentCount_pos (64 - arity))) with
      ⟨rest, hRest⟩
    have hSplit :
        assignmentCount 64 - free.toNat + subset.toNat =
          subset.toNat + care + 1 +
            assignmentCount arity * rest := by
      rw [hBorrow, hRest, Nat.mul_succ]
      omega
    rw [hSplit, Nat.add_mul_mod_self_left]
  rw [UInt64.toNat_and, hSub, ← mod_and_of_lt hFree,
    Nat.mod_mod_of_dvd _ hDvd, hCongr, mod_and_of_lt hFree]

------------------------------------------------------------
-- Cursors in Words
------------------------------------------------------------

/- A place in the enumeration, kept in words. -/
structure WordCursor where
  free : UInt64
  value : UInt64
  subset : UInt64
  finished : Bool
  deriving DecidableEq

namespace WordCursor

/- The place before the least assignment of a row. -/
def ofRow
    (row : Row) : WordCursor where
  free := allDigits row.arity &&& ~~~row.wordMasks.care
  value := row.wordMasks.value
  subset := 0
  finished := false

/- The subset of free digits that follows the current one. -/
def successor
    (cursor : WordCursor) : UInt64 :=
  (cursor.subset - cursor.free) &&& cursor.free

/-
  The assignment at the current place, and the place after
  it. A finished cursor stays where it is.
-/
def next
    (cursor : WordCursor) : Option UInt64 × WordCursor :=
  if cursor.finished then
    (none, cursor)
  else if cursor.subset = cursor.free then
    (some (cursor.value ||| cursor.subset),
      { cursor with finished := true })
  else
    (some (cursor.value ||| cursor.subset),
      { cursor with subset := cursor.successor })

/-
  A cursor in words stands where a cursor of numbers does,
  over as many variables as a word has digits for.
-/
structure StandsAt
    (arity : Nat)
    (word : WordCursor)
    (cursor : Cursor) : Prop where
  arity_le : arity ≤ 64
  digits :
    cursor.care + cursor.free + 1 = assignmentCount arity
  free_eq : word.free.toNat = cursor.free
  value_eq : word.value.toNat = cursor.value
  subset_eq : word.subset.toNat = cursor.subset
  finished_eq : word.finished = cursor.finished

theorem standsAt_ofRow
    {row : Row}
    (hLe : row.arity ≤ 64) :
    (ofRow row).StandsAt row.arity (Cursor.ofRow row) where
  arity_le := hLe
  digits := row.care_add_free
  free_eq := by
    have hCare := (toNat_wordMasks hLe).1
    have hLt := row.masks_lt.1
    rw [← hCare] at hLt
    show (allDigits row.arity &&& ~~~row.wordMasks.care).toNat =
      (assignmentCount row.arity - 1) ^^^ row.masks.care
    rw [toNat_allDigits_and_not hLe hLt, hCare]
  value_eq := (toNat_wordMasks hLe).2
  subset_eq := rfl
  finished_eq := rfl

section Steps

variable {arity : Nat}
variable {word : WordCursor}
variable {cursor : Cursor}

theorem StandsAt.toNat_successor
    (h : word.StandsAt arity cursor) :
    word.successor.toNat = cursor.successor := by
  have hDigits := h.digits
  rw [← h.free_eq] at hDigits
  rw [successor, toNat_sub_and h.arity_le hDigits,
    h.subset_eq, h.free_eq, Cursor.successor]

theorem StandsAt.toNat_current
    (h : word.StandsAt arity cursor) :
    (word.value ||| word.subset).toNat =
      cursor.value ||| cursor.subset := by
  rw [UInt64.toNat_or, h.value_eq, h.subset_eq]

/- The two cursors answer alike and move on together. -/
theorem StandsAt.next
    (h : word.StandsAt arity cursor) :
    word.next.1.map UInt64.toNat = cursor.next.1 ∧
      word.next.2.StandsAt arity cursor.next.2 := by
  have hLast :
      word.subset = word.free ↔ cursor.subset = cursor.free := by
    rw [← UInt64.toNat_inj, h.subset_eq, h.free_eq]
  unfold WordCursor.next Cursor.next
  rw [h.finished_eq]
  split
  · exact ⟨rfl, h⟩
  · by_cases hSubset : cursor.subset = cursor.free
    · rw [if_pos hSubset, if_pos (hLast.2 hSubset)]
      exact ⟨congrArg some h.toNat_current,
        { h with finished_eq := rfl }⟩
    · rw [if_neg hSubset,
        if_neg (fun hEq => hSubset (hLast.1 hEq))]
      exact ⟨congrArg some h.toNat_current,
        { h with
          subset_eq := h.toNat_successor
          finished_eq := rfl }⟩

end Steps

end WordCursor

end Row

end TwoLevel
