import TwoLevel.Row.Basic

/-
  This file enumerates the assignments that satisfy a row. An
  assignment is numbered by its truth values read as binary
  digits, the first variable highest.

  A row is described by two numbers: the digits it fixes, and
  the values it fixes them to. The free digits then run
  through all their subsets in ascending order. Adding one to
  a subset while the fixed digits are set lets the carry pass
  through them, so the sum is the next subset once the fixed
  digits are masked out again.

  Key definitions include:
    * `assignmentCount`
    * `Row.Masks`
    * `Row.masks`
    * `Row.Cursor`
    * `Row.Cursor.next`
    * `Row.Cursor.take`
    * `Row.assignments`

  Main theorems:
    * `masks_concat`
    * `next_of_finished`
-/

namespace TwoLevel

------------------------------------------------------------
-- Numbers of Assignments
------------------------------------------------------------

/- The number of assignments to so many variables. -/
def assignmentCount
    (arity : Nat) : Nat :=
  Nat.pow 2 arity

@[simp] theorem assignmentCount_zero :
    assignmentCount 0 = 1 :=
  rfl

theorem assignmentCount_succ
    (arity : Nat) :
    assignmentCount (arity + 1) = 2 * assignmentCount arity :=
  Nat.mul_comm _ _

theorem assignmentCount_pos
    (arity : Nat) :
    0 < assignmentCount arity :=
  Nat.two_pow_pos arity

namespace Row

------------------------------------------------------------
-- Masks
------------------------------------------------------------

/-
  The digits that a row fixes, and those among them that it
  fixes to one.
-/
structure Masks where
  care : Nat
  value : Nat
  deriving DecidableEq, Repr

namespace Masks

/- Append the digit of one more variable at the low end. -/
def push
    (masks : Masks) : Value → Masks
  | .zero => ⟨2 * masks.care + 1, 2 * masks.value⟩
  | .one => ⟨2 * masks.care + 1, 2 * masks.value + 1⟩
  | .dontCare => ⟨2 * masks.care, 2 * masks.value⟩

/- Whether an assignment has the fixed digits. -/
def admits
    (masks : Masks)
    (index : Nat) : Bool :=
  (index &&& masks.care) == masks.value

end Masks

/- The masks of a row. -/
def masks
    (row : Row) : Masks :=
  row.values.foldl Masks.push ⟨0, 0⟩

theorem masks_concat
    (vs : List Value)
    (v : Value) :
    masks ⟨vs ++ [v]⟩ = (masks ⟨vs⟩).push v := by
  simp [masks]

------------------------------------------------------------
-- Cursors
------------------------------------------------------------

/-
  A place in the enumeration of a row's assignments: the
  subset of free digits that comes next.
-/
structure Cursor where
  care : Nat
  free : Nat
  value : Nat
  subset : Nat
  finished : Bool
  deriving DecidableEq, Repr

namespace Cursor

/- The place before the least assignment of a row. -/
def ofRow
    (row : Row) : Cursor where
  care := row.masks.care
  free := (assignmentCount row.arity - 1) ^^^ row.masks.care
  value := row.masks.value
  subset := 0
  finished := false

/- The subset of free digits that follows the current one. -/
def successor
    (cursor : Cursor) : Nat :=
  (cursor.subset + cursor.care + 1) &&& cursor.free

/-
  The assignment at the current place, and the place after
  it. A finished cursor stays where it is.
-/
def next
    (cursor : Cursor) : Option Nat × Cursor :=
  if cursor.finished then
    (none, cursor)
  else if cursor.subset = cursor.free then
    (some (cursor.value ||| cursor.subset),
      { cursor with finished := true })
  else
    (some (cursor.value ||| cursor.subset),
      { cursor with subset := cursor.successor })

/- The next assignments, up to the given number of them. -/
def take : Nat → Cursor → List Nat × Cursor
  | 0, cursor => ([], cursor)
  | limit + 1, cursor =>
      match cursor.next with
      | (none, after) => ([], after)
      | (some index, after) =>
          let (indices, last) := after.take limit
          (index :: indices, last)

theorem next_of_finished
    {cursor : Cursor}
    (h : cursor.finished = true) :
    cursor.next = (none, cursor) := by
  simp [next, h]

end Cursor

/- All assignments that satisfy a row, ascending. -/
def assignments
    (row : Row) : List Nat :=
  ((Cursor.ofRow row).take
    (assignmentCount row.dontCares)).1

end Row

end TwoLevel
