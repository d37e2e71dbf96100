import Mathlib.Data.List.Induction
import TwoLevel.Proofs.Row.Containment
import TwoLevel.Row.Assignments

/-
  This file ties the numbers of assignments to the
  assignments themselves. Every list of truth values has one
  number, and the masks of a row admit a number exactly when
  the row is satisfied by the assignment of that number. An
  assignment can also be given as a row, one that demands a
  truth value of every variable.

  Everything goes by the last variable, whose truth value is
  the lowest digit.

  Key definitions include:
    * `Row.indexOfBits`
    * `Row.truths?`
    * `Row.MetBy`

  Main theorems:
    * `concatInduction`
    * `bitsOfIndex_succ`
    * `bitsOfIndex_indexOfBits`
    * `exists_bitsOfIndex_eq`
    * `bitsOfIndex_inj`
    * `exists_ofBools_eq`
    * `metBy_ofIndex_iff`
    * `admits_masks`
    * `and_care_eq_value_iff`
    * `masks_lt`
-/

namespace TwoLevel

namespace Row

------------------------------------------------------------
-- The Last Variable
------------------------------------------------------------

/- Induction that adds one variable at the low end. -/
@[elab_as_elim] theorem concatInduction
    {motive : Row → Prop}
    (nil : motive ⟨[]⟩)
    (literal :
      ∀ vs v, v.isLiteral = true →
        motive ⟨vs⟩ → motive ⟨vs ++ [v]⟩)
    (dontCare :
      ∀ vs, motive ⟨vs⟩ → motive ⟨vs ++ [.dontCare]⟩)
    (row : Row) :
    motive row := by
  rcases row with ⟨values⟩
  induction values using List.reverseRecOn with
  | nil => exact nil
  | append_singleton vs v ih =>
      by_cases hv : v.isLiteral = true
      · exact literal vs v hv ih
      · rw [Value.eq_dontCare_of_not_isLiteral hv]
        exact dontCare vs ih

theorem bitsOfIndex_succ
    (index arity : Nat) :
    bitsOfIndex index (arity + 1) =
      bitsOfIndex (index / 2) arity ++
        [index.testBit 0] := by
  unfold bitsOfIndex
  rw [List.range_succ, List.map_append]
  congr 1
  · apply List.map_congr_left
    intro position hPosition
    have hLt := List.mem_range.1 hPosition
    have hSucc :
        arity + 1 - 1 - position =
          (arity - 1 - position) + 1 := by
      omega
    rw [hSucc, Nat.testBit_succ]
  · simp

@[simp] theorem arity_concat
    (vs : List Value)
    (v : Value) :
    arity ⟨vs ++ [v]⟩ = arity ⟨vs⟩ + 1 := by
  simp [arity]

theorem satisfiedBy_concat
    (vs : List Value)
    (v : Value)
    (bits : List Bool)
    (bit : Bool) :
    satisfiedBy ⟨vs ++ [v]⟩ (bits ++ [bit]) =
      (satisfiedBy ⟨vs⟩ bits && v.accepts bit) := by
  induction vs generalizing bits with
  | nil =>
      cases bits with
      | nil => simp
      | cons b bs =>
          cases bs <;> simp
  | cons w ws ih =>
      cases bits with
      | nil => cases ws <;> simp
      | cons b bs =>
          simp only [List.cons_append, satisfiedBy_cons_cons]
          rw [ih, Bool.and_assoc]

------------------------------------------------------------
-- Numbers and Assignments
------------------------------------------------------------

/- The truth values read as digits, the first one highest. -/
def indexOfBits
    (bits : List Bool) : Nat :=
  bits.foldl (fun index bit => 2 * index + bit.toNat) 0

theorem indexOfBits_concat
    (bits : List Bool)
    (bit : Bool) :
    indexOfBits (bits ++ [bit]) =
      2 * indexOfBits bits + bit.toNat := by
  simp [indexOfBits]

theorem indexOfBits_lt
    (bits : List Bool) :
    indexOfBits bits < assignmentCount bits.length := by
  induction bits using List.reverseRecOn with
  | nil => exact assignmentCount_pos 0
  | append_singleton bits bit ih =>
      have hBit := bit.toNat_le
      rw [indexOfBits_concat, List.length_append,
        List.length_singleton, assignmentCount_succ]
      omega

/- Reading the digits back gives the truth values. -/
@[simp] theorem bitsOfIndex_indexOfBits
    (bits : List Bool) :
    bitsOfIndex (indexOfBits bits) bits.length = bits := by
  induction bits using List.reverseRecOn with
  | nil => rfl
  | append_singleton bits bit ih =>
      have hHalf :
          (2 * indexOfBits bits + bit.toNat) / 2 =
            indexOfBits bits := by
        have hBit := bit.toNat_le
        omega
      rw [indexOfBits_concat, List.length_append,
        List.length_singleton, bitsOfIndex_succ, hHalf, ih]
      congr 1
      cases bit <;> simp

/- Every assignment has a number. -/
theorem exists_bitsOfIndex_eq
    (bits : List Bool) :
    ∃ index, index < assignmentCount bits.length ∧
      bitsOfIndex index bits.length = bits :=
  ⟨indexOfBits bits, indexOfBits_lt bits,
    bitsOfIndex_indexOfBits bits⟩

/- No two numbers below the bound name one assignment. -/
theorem bitsOfIndex_inj
    {arity i j : Nat}
    (hi : i < assignmentCount arity)
    (hj : j < assignmentCount arity)
    (h : bitsOfIndex i arity = bitsOfIndex j arity) :
    i = j := by
  induction arity generalizing i j with
  | zero =>
      rw [assignmentCount_zero] at hi hj
      omega
  | succ arity ih =>
      rw [bitsOfIndex_succ, bitsOfIndex_succ] at h
      rcases List.append_inj h (by simp) with ⟨hInit, hLast⟩
      rw [assignmentCount_succ] at hi hj
      have hHalf : i / 2 = j / 2 :=
        ih (by omega) (by omega) hInit
      have hDigit : i % 2 = 1 ↔ j % 2 = 1 := by
        simpa [Nat.testBit_zero] using hLast
      omega

------------------------------------------------------------
-- Assignments as Rows
------------------------------------------------------------

theorem isAssignment_iff
    {row : Row} :
    row.isAssignment = true ↔ row.dontCares = 0 := by
  simp [isAssignment, dontCares, List.countP_eq_zero]

theorem exists_ofBools_eq
    {row : Row}
    (h : row.isAssignment = true) :
    ∃ bits, row = ofBools bits := by
  rcases row with ⟨values⟩
  induction values with
  | nil => exact ⟨[], rfl⟩
  | cons v vs ih =>
      simp only [isAssignment, List.all_cons,
        Bool.and_eq_true] at h
      rcases ih h.2 with ⟨bits, hBits⟩
      have hvs := Row.mk.inj hBits
      cases v with
      | zero => exact ⟨false :: bits, by rw [hvs]; rfl⟩
      | one => exact ⟨true :: bits, by rw [hvs]; rfl⟩
      | dontCare => cases h.1

/- The truth values of a row that demands one everywhere. -/
def truths?
    (row : Row) : Option (List Bool) :=
  row.values.mapM Value.toBool?

@[simp] theorem truths?_ofBools
    (bits : List Bool) :
    (ofBools bits).truths? = some bits := by
  induction bits with
  | nil => rfl
  | cons bit bits ih =>
      have hRest :
          (bits.map Value.ofBool).mapM Value.toBool? =
            some bits :=
        ih
      simp [truths?, ofBools, List.mapM_cons, hRest]

/- A row is met by an assignment that is given as a row. -/
def MetBy
    (row assignment : Row) : Prop :=
  ∃ bits, assignment.truths? = some bits ∧
    row.satisfiedBy bits = true

@[simp] theorem metBy_ofBools_iff
    {row : Row}
    {bits : List Bool} :
    row.MetBy (ofBools bits) ↔
      row.satisfiedBy bits = true := by
  simp [MetBy]

theorem metBy_ofIndex_iff
    {row : Row}
    {index arity : Nat} :
    row.MetBy (ofIndex index arity) ↔
      row.satisfiedBy (bitsOfIndex index arity) = true :=
  metBy_ofBools_iff

------------------------------------------------------------
-- Masks
------------------------------------------------------------

theorem and_double
    (m n : Nat) :
    m &&& (2 * n) = 2 * (m / 2 &&& n) := by
  have hHalf : (m &&& (2 * n)) / 2 = m / 2 &&& n := by
    rw [Nat.and_div_two,
      Nat.mul_div_cancel_left n (by omega)]
  have hDigit := Nat.and_mod_two_eq_one (a := m) (b := 2 * n)
  omega

theorem and_double_succ
    (m n : Nat) :
    m &&& (2 * n + 1) = 2 * (m / 2 &&& n) + m % 2 := by
  have hn : (2 * n + 1) / 2 = n := by omega
  have hHalf : (m &&& (2 * n + 1)) / 2 = m / 2 &&& n := by
    rw [Nat.and_div_two, hn]
  have hDigit :=
    Nat.and_mod_two_eq_one (a := m) (b := 2 * n + 1)
  omega

theorem or_of_digits
    {m n a b : Nat}
    (ha : a < 2)
    (hb : b < 2) :
    (2 * m + a) ||| (2 * n + b) =
      2 * (m ||| n) + max a b := by
  have hm : (2 * m + a) / 2 = m := by omega
  have hn : (2 * n + b) / 2 = n := by omega
  have hHalf :=
    Nat.or_div_two (a := 2 * m + a) (b := 2 * n + b)
  rw [hm, hn] at hHalf
  have hDigit :=
    Nat.or_mod_two_eq_one (a := 2 * m + a) (b := 2 * n + b)
  omega

theorem xor_of_digits
    {m n a b : Nat}
    (ha : a < 2)
    (hb : b < 2) :
    (2 * m + a) ^^^ (2 * n + b) =
      2 * (m ^^^ n) + (a + b) % 2 := by
  have hm : (2 * m + a) / 2 = m := by omega
  have hn : (2 * n + b) / 2 = n := by omega
  have hHalf :=
    Nat.xor_div_two (a := 2 * m + a) (b := 2 * n + b)
  rw [hm, hn] at hHalf
  have hDigit :=
    Nat.xor_mod_two_eq_one (a := 2 * m + a) (b := 2 * n + b)
  omega

/- The last variable is read off the lowest digit. -/
theorem admits_masks_concat
    (vs : List Value)
    (v : Value)
    (index : Nat) :
    (masks ⟨vs ++ [v]⟩).admits index =
      ((masks ⟨vs⟩).admits (index / 2) &&
        v.accepts (index.testBit 0)) := by
  rw [masks_concat, Nat.testBit_zero, Bool.eq_iff_iff]
  unfold Masks.admits
  cases v with
  | zero =>
      simp only [Masks.push, Value.accepts, and_double_succ,
        Bool.and_eq_true, beq_iff_eq, Bool.not_eq_true',
        decide_eq_false_iff_not]
      omega
  | one =>
      simp only [Masks.push, Value.accepts, and_double_succ,
        Bool.and_eq_true, beq_iff_eq, decide_eq_true_eq]
      omega
  | dontCare =>
      simp only [Masks.push, Value.accepts, and_double,
        Bool.and_true, beq_iff_eq]
      omega

/- A row admits the numbers of its assignments. -/
theorem admits_masks
    (row : Row)
    (index : Nat) :
    row.masks.admits index =
      row.satisfiedBy (bitsOfIndex index row.arity) := by
  rcases row with ⟨values⟩
  induction values using List.reverseRecOn
      generalizing index with
  | nil => simp [masks, Masks.admits, bitsOfIndex, arity]
  | append_singleton vs v ih =>
      rw [admits_masks_concat, ih, arity_concat,
        bitsOfIndex_succ, satisfiedBy_concat]

/- An assignment with the fixed digits meets the row. -/
theorem and_care_eq_value_iff
    {row : Row}
    {index : Nat} :
    index &&& row.masks.care = row.masks.value ↔
      row.MetBy (ofIndex index row.arity) := by
  rw [metBy_ofIndex_iff, ← admits_masks, Masks.admits,
    beq_iff_eq]

/- The masks have no digit beyond the variables. -/
theorem masks_lt
    (row : Row) :
    row.masks.care < assignmentCount row.arity ∧
      row.masks.value < assignmentCount row.arity := by
  rcases row with ⟨values⟩
  induction values using List.reverseRecOn with
  | nil => exact ⟨Nat.one_pos, Nat.one_pos⟩
  | append_singleton vs v ih =>
      rw [masks_concat, arity_concat, assignmentCount_succ]
      rcases ih with ⟨hCare, hValue⟩
      cases v with
      | zero =>
          simp only [Masks.push]
          omega
      | one =>
          simp only [Masks.push]
          omega
      | dontCare =>
          simp only [Masks.push]
          omega

end Row

end TwoLevel
