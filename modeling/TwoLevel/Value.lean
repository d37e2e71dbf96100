import TwoLevel.Error

/-
  This file defines the three values that a position of a row
  can hold, their order `0 < 1 < -`, and how they are written
  and read.

  Key definitions include:
    * `Value`
    * `Value.accepts`
    * `Value.complements`
    * `Value.toChar`
    * `Value.ofChar`
    * `Value.ofByte`

  Main theorems:
    * `complements_iff`
    * `ofChar_eq_ok_iff`
    * `toChar_inj`
-/

namespace TwoLevel

/-
  A position either demands a truth value or demands nothing.
  The constructors are listed in ascending order.
-/
inductive Value where
  | zero
  | one
  | dontCare
  deriving DecidableEq, Repr, Ord

namespace Value

------------------------------------------------------------
-- Order
------------------------------------------------------------

instance : Std.LawfulEqOrd Value where
  compare_self := by
    intro a
    cases a <;> rfl
  eq_of_compare := by
    intro a b
    cases a <;> cases b <;> decide

instance : Std.TransOrd Value where
  eq_swap := by
    intro a b
    cases a <;> cases b <;> rfl
  isLE_trans := by
    intro a b c
    cases a <;> cases b <;> cases c <;> decide

------------------------------------------------------------
-- Meaning
------------------------------------------------------------

/- Whether the value demands a truth value. -/
def isLiteral : Value → Bool
  | dontCare => false
  | _ => true

/- The truth value that is demanded, if one is. -/
def toBool? : Value → Option Bool
  | zero => some false
  | one => some true
  | dontCare => none

/- The value that demands the given truth value. -/
def ofBool : Bool → Value
  | false => zero
  | true => one

/- Whether a truth value meets the demand. -/
def accepts : Value → Bool → Bool
  | zero, bit => !bit
  | one, bit => bit
  | dontCare, _ => true

/- Whether the two values demand opposite truth values. -/
def complements : Value → Value → Bool
  | zero, one => true
  | one, zero => true
  | _, _ => false

theorem complements_iff
    (a b : Value) :
    a.complements b = true ↔
      a.isLiteral = true ∧ b.isLiteral = true ∧
        a ≠ b := by
  cases a <;> cases b <;> decide

@[simp] theorem isLiteral_dontCare :
    isLiteral dontCare = false :=
  rfl

@[simp] theorem isLiteral_ofBool
    (bit : Bool) :
    (ofBool bit).isLiteral = true := by
  cases bit <;> rfl

@[simp] theorem toBool?_ofBool
    (bit : Bool) :
    (ofBool bit).toBool? = some bit := by
  cases bit <;> rfl

@[simp] theorem accepts_ofBool
    (bit other : Bool) :
    (ofBool bit).accepts other = (bit == other) := by
  cases bit <;> cases other <;> rfl

------------------------------------------------------------
-- Written Form
------------------------------------------------------------

/- A value is written as a single character. -/
def toChar : Value → Char
  | zero => '0'
  | one => '1'
  | dontCare => '-'

/- Every other character is refused and reported. -/
def ofChar
    (c : Char) : Except Fault Value :=
  if c = '0' then .ok zero
  else if c = '1' then .ok one
  else if c = '-' then .ok dontCare
  else .error (.invalidValue (String.singleton c))

/-
  A byte is a truth value when it is 0 or 1. A refused byte
  is reported in decimal.
-/
def ofByte
    (byte : UInt8) : Except Fault Value :=
  if byte = 0 then .ok zero
  else if byte = 1 then .ok one
  else .error (.invalidValue byte.toNat.repr)

@[simp] theorem ofChar_toChar
    (v : Value) :
    ofChar v.toChar = .ok v := by
  cases v <;> rfl

theorem ofChar_eq_ok_iff
    {c : Char}
    {v : Value} :
    ofChar c = .ok v ↔ c = v.toChar := by
  constructor
  · intro h
    unfold ofChar at h
    split at h
    · cases h; assumption
    · split at h
      · cases h; assumption
      · split at h
        · cases h; assumption
        · cases h
  · rintro rfl
    exact ofChar_toChar v

/- Distinct values are written differently. -/
theorem toChar_inj
    {a b : Value} :
    a.toChar = b.toChar ↔ a = b := by
  cases a <;> cases b <;> decide

end Value

end TwoLevel
