import TwoLevel.Value
import TwoLevel.OrderedSet

/-
  This file defines rows: one value per variable, standing for
  the set of assignments that meet all of its demands. Two
  rows that differ in a single demand merge into one that
  stands for both.

  Key definitions include:
    * `Row`
    * `Row.ofBools`
    * `Row.ofBytes`
    * `Row.ofIndex`
    * `Row.merge`
    * `Row.satisfiedBy`
    * `Row.literals`

  Main theorems:
    * `literalCount_add_dontCares`
    * `satisfiedBy_cons_cons`
    * `satisfiedBy_ofBools`
    * `arity_of_merge`
    * `literalCount_of_merge`
-/

namespace TwoLevel

/- One value for each variable, the first variable first. -/
@[ext] structure Row where
  values : List Value
  deriving DecidableEq, Repr

namespace Row

------------------------------------------------------------
-- Order
------------------------------------------------------------

/-
  Rows are compared at the first position where they differ.
  A row that ends before is the smaller one.
-/
instance : Ord Row where
  compare a b := compare a.values b.values

theorem compare_def
    (a b : Row) :
    compare a b = compare a.values b.values :=
  rfl

instance : Std.LawfulEqOrd Row where
  compare_self := by
    intro a
    exact Std.ReflOrd.compare_self (a := a.values)
  eq_of_compare := by
    intro a b h
    exact Row.ext (Std.LawfulEqOrd.eq_of_compare h)

instance : Std.TransOrd Row where
  eq_swap := by
    intro a b
    exact Std.OrientedOrd.eq_swap
      (a := a.values) (b := b.values)
  isLE_trans := by
    intro a b c
    exact Std.TransOrd.isLE_trans
      (a := a.values) (b := b.values) (c := c.values)

------------------------------------------------------------
-- Construction
------------------------------------------------------------

/- The row that demands the given truth values. -/
def ofBools
    (bits : List Bool) : Row where
  values := bits.map Value.ofBool

/- The row of a list of bytes that are truth values. -/
def ofBytes
    (bytes : List UInt8) : Except Fault Row := do
  let values ← bytes.mapM Value.ofByte
  return { values }

/-
  The truth values that an index stands for: its binary digits
  below the arity, the highest first.
-/
def bitsOfIndex
    (index arity : Nat) : List Bool :=
  (List.range arity).map
    (fun position => index.testBit (arity - 1 - position))

/- The row that demands the truth values of an index. -/
def ofIndex
    (index arity : Nat) : Row :=
  ofBools (bitsOfIndex index arity)

------------------------------------------------------------
-- Measures
------------------------------------------------------------

/- The number of variables. -/
def arity
    (row : Row) : Nat :=
  row.values.length

/- The number of variables that are not constrained. -/
def dontCares
    (row : Row) : Nat :=
  row.values.countP (fun v => !v.isLiteral)

/- The number of variables that are constrained. -/
def literalCount
    (row : Row) : Nat :=
  row.values.countP Value.isLiteral

/- Whether every variable is constrained. -/
def isAssignment
    (row : Row) : Bool :=
  row.values.all Value.isLiteral

/- A demand on the variable at one position. -/
structure Literal where
  position : Nat
  polarity : Bool
  deriving DecidableEq, Repr

/- The demands of a row, in the order of the variables. -/
def literals
    (row : Row) : List Literal :=
  row.values.zipIdx.filterMap
    (fun (v, position) =>
      v.toBool?.map (fun polarity => { position, polarity }))

/- The value at a position, if the row has that position. -/
def get?
    (row : Row)
    (position : Nat) : Option Value :=
  row.values[position]?

@[simp] theorem arity_ofBools
    (bits : List Bool) :
    (ofBools bits).arity = bits.length := by
  simp [ofBools, arity]

@[simp] theorem length_bitsOfIndex
    (index arity : Nat) :
    (bitsOfIndex index arity).length = arity := by
  simp [bitsOfIndex]

@[simp] theorem arity_ofIndex
    (index arity : Nat) :
    (ofIndex index arity).arity = arity := by
  simp [ofIndex]

theorem literalCount_add_dontCares
    (row : Row) :
    row.literalCount + row.dontCares = row.arity := by
  unfold literalCount dontCares arity
  rw [List.length_eq_countP_add_countP Value.isLiteral]
  simp

------------------------------------------------------------
-- Satisfaction
------------------------------------------------------------

/-
  Whether an assignment of truth values meets every demand. An
  assignment to another number of variables does not.
-/
def satisfiedBy
    (row : Row)
    (assignment : List Bool) : Bool :=
  row.arity == assignment.length &&
    (row.values.zip assignment).all
      (fun (v, bit) => v.accepts bit)

@[simp] theorem satisfiedBy_nil
    (assignment : List Bool) :
    satisfiedBy ⟨[]⟩ assignment = assignment.isEmpty := by
  cases assignment <;> rfl

@[simp] theorem satisfiedBy_cons_nil
    (v : Value)
    (vs : List Value) :
    satisfiedBy ⟨v :: vs⟩ [] = false :=
  rfl

@[simp] theorem satisfiedBy_cons_cons
    (v : Value)
    (vs : List Value)
    (bit : Bool)
    (bits : List Bool) :
    satisfiedBy ⟨v :: vs⟩ (bit :: bits) =
      (v.accepts bit && satisfiedBy ⟨vs⟩ bits) := by
  simp only [satisfiedBy, arity, List.length_cons,
    List.zip_cons_cons, List.all_cons]
  rw [Bool.and_left_comm]
  congr 1
  rw [Bool.eq_iff_iff]
  simp

theorem length_eq_of_satisfiedBy
    {row : Row}
    {assignment : List Bool}
    (h : row.satisfiedBy assignment = true) :
    assignment.length = row.arity := by
  simp only [satisfiedBy, Bool.and_eq_true, beq_iff_eq] at h
  exact h.1.symm

/- A row without don't-cares admits one assignment only. -/
theorem satisfiedBy_ofBools
    (bits assignment : List Bool) :
    (ofBools bits).satisfiedBy assignment =
      decide (bits = assignment) := by
  induction bits generalizing assignment with
  | nil => cases assignment <;> simp [ofBools]
  | cons bit bits ih =>
      cases assignment with
      | nil => simp [ofBools]
      | cons other others =>
          have hTail := ih others
          simp only [ofBools] at hTail
          simp only [ofBools, List.map_cons,
            satisfiedBy_cons_cons, Value.accepts_ofBool,
            hTail]
          rw [Bool.eq_iff_iff]
          simp

------------------------------------------------------------
-- Merging
------------------------------------------------------------

/-
  Merge two lists of values that agree except for one position
  with opposite demands. The demand is dropped there.
-/
def mergeValues :
    List Value → List Value → Option (List Value)
  | a :: as, b :: bs =>
      if a = b then
        (mergeValues as bs).map (a :: ·)
      else if a.complements b && as == bs then
        some (.dontCare :: as)
      else
        none
  | _, _ => none

/-
  The row that stands for both rows, if they differ in one
  demand only.
-/
def merge
    (a b : Row) : Option Row :=
  (mergeValues a.values b.values).map Row.mk

/- Whether two rows merge. -/
def mergeable
    (a b : Row) : Bool :=
  (a.merge b).isSome

theorem mergeValues_eq_some
    {as bs cs : List Value}
    (h : mergeValues as bs = some cs) :
    as.length = cs.length ∧
      bs.length = cs.length ∧
      as.countP Value.isLiteral =
        cs.countP Value.isLiteral + 1 ∧
      bs.countP Value.isLiteral =
        cs.countP Value.isLiteral + 1 := by
  fun_induction mergeValues as bs generalizing cs with
  | case1 a as bs ih =>
      rcases Option.map_eq_some_iff.1 h with ⟨ds, hds, rfl⟩
      have := ih hds
      simp only [List.length_cons, List.countP_cons]
      omega
  | case2 a as b bs hNe hMerge =>
      cases h
      simp only [Bool.and_eq_true, beq_iff_eq] at hMerge
      rcases hMerge with ⟨hCompl, rfl⟩
      rcases (Value.complements_iff a b).1 hCompl with
        ⟨ha, hb, _⟩
      simp [ha, hb]
  | case3 => cases h
  | case4 => cases h

/- Merging keeps the variables. -/
theorem arity_of_merge
    {a b c : Row}
    (h : a.merge b = some c) :
    a.arity = c.arity ∧ b.arity = c.arity := by
  rcases Option.map_eq_some_iff.1 h with ⟨cs, hcs, rfl⟩
  have := mergeValues_eq_some hcs
  exact ⟨this.1, this.2.1⟩

/- Merging drops exactly one demand. -/
theorem literalCount_of_merge
    {a b c : Row}
    (h : a.merge b = some c) :
    a.literalCount = c.literalCount + 1 ∧
      b.literalCount = c.literalCount + 1 := by
  rcases Option.map_eq_some_iff.1 h with ⟨cs, hcs, rfl⟩
  have := mergeValues_eq_some hcs
  exact ⟨this.2.2.1, this.2.2.2⟩

end Row

/- A finite set of rows, listed in row order. -/
abbrev RowSet :=
  OrderedSet Row

end TwoLevel
