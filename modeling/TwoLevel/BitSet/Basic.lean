import TwoLevel.BitSet.Packed
import TwoLevel.Error

/-
  This file defines sets of indices below a fixed width, kept
  in packed words together with the number of members.

  A set always has just the words its width needs, no index at
  or beyond the width is set, and the number kept is the
  number of indices set. So two sets of one width with the
  same members are equal, and counting costs nothing.

  Key definitions include:
    * `BitSet`
    * `BitSet.empty`
    * `BitSet.full`
    * `BitSet.contains`
    * `BitSet.insert`
    * `BitSet.extend`
    * `BitSet.ofList`
    * `BitSet.erase`
    * `BitSet.interSize`
    * `BitSet.diff`
    * `BitSet.toList`
-/

namespace TwoLevel

/- A set of indices below `width`. -/
structure BitSet where
  width : Nat
  words : Array UInt64
  size : Nat
  size_words : words.size = Packed.wordCount width
  clear_above :
    ∀ i, width ≤ i → Packed.bit words i = false
  size_eq : size = Packed.ones words

namespace BitSet

------------------------------------------------------------
-- Reading
------------------------------------------------------------

/- Whether an index is a member. No index beyond is. -/
def contains
    (s : BitSet)
    (i : Nat) : Bool :=
  Packed.bit s.words i

/- Whether there is no member. -/
def isEmpty
    (s : BitSet) : Bool :=
  s.size == 0

/- The members, ascending. -/
def toList
    (s : BitSet) : List Nat :=
  (List.range s.width).filter s.contains

/- The least member. -/
def first?
    (s : BitSet) : Option Nat :=
  (List.range s.width).find? s.contains

instance : DecidableEq BitSet :=
  fun s t =>
    decidable_of_iff
      (s.width = t.width ∧ s.words = t.words) (by
        cases s with
        | mk sw ss sn _ _ hs =>
            cases t with
            | mk tw ts tn _ _ ht =>
                constructor
                · rintro ⟨rfl, rfl⟩
                  simp [hs, ht]
                · intro h
                  cases h
                  exact ⟨rfl, rfl⟩)

theorem width_le_words
    (s : BitSet) :
    s.width ≤ 64 * s.words.size := by
  rw [s.size_words]
  unfold Packed.wordCount
  omega

theorem lt_words_of_lt_width
    {s : BitSet}
    {i : Nat}
    (h : i < s.width) :
    i < 64 * s.words.size :=
  Nat.lt_of_lt_of_le h (width_le_words s)

/- Every index below the width has its word. -/
theorem div_lt_size_words
    {s : BitSet}
    {i : Nat}
    (h : i < s.width) :
    i / 64 < s.words.size :=
  Nat.div_lt_of_lt_mul (lt_words_of_lt_width h)

------------------------------------------------------------
-- Construction
------------------------------------------------------------

/- The set without members. -/
def empty
    (width : Nat) : BitSet where
  width := width
  words := Array.replicate (Packed.wordCount width) 0
  size := 0
  size_words := by simp
  clear_above := fun i _ => Packed.bit_replicate_zero _ i
  size_eq := (Packed.ones_replicate_zero _).symm

/- The set of all indices below the width. -/
def full
    (width : Nat) : BitSet where
  width := width
  words := Packed.low width
  size := width
  size_words := Packed.size_low width
  clear_above := by
    intro i hi
    simp [Packed.bit_low, hi]
  size_eq := (Packed.ones_low width).symm

------------------------------------------------------------
-- Members
------------------------------------------------------------

/- Add an index that the width allows. -/
def add
    (s : BitSet)
    (i : Nat)
    (hi : i < s.width) : BitSet :=
  if hc : s.contains i = true then s
  else
    { width := s.width
      words := Packed.set s.words i
      size := s.size + 1
      size_words := by
        rw [Packed.size_set, s.size_words]
      clear_above := by
        intro j hj
        have hNe : j ≠ i := by omega
        rw [Packed.bit_set (lt_words_of_lt_width hi),
          s.clear_above j hj]
        simp [hNe]
      size_eq := by
        rw [Packed.ones_set (lt_words_of_lt_width hi)
          (by simpa [contains] using hc), s.size_eq] }

/-
  Add an index and tell whether it is new. An index that the
  width does not allow is refused.
-/
def insert
    (s : BitSet)
    (i : Nat) : Except OutOfRange (BitSet × Bool) :=
  if hi : i < s.width then
    .ok (s.add i hi, !s.contains i)
  else
    .error ⟨i, s.width⟩

/-
  Add indices one by one up to the first that is refused.
  Those before it stay in the set.
-/
def extend
    (s : BitSet) : List Nat → BitSet × Option OutOfRange
  | [] => (s, none)
  | i :: is =>
      if hi : i < s.width then
        (s.add i hi).extend is
      else
        (s, some ⟨i, s.width⟩)

/- The set of the given indices, unless one is refused. -/
def ofList
    (width : Nat)
    (is : List Nat) : Except OutOfRange BitSet :=
  let extended := (empty width).extend is
  match extended.2 with
  | none => .ok extended.1
  | some fault => .error fault

/- Remove an index and tell whether it was a member. -/
def erase
    (s : BitSet)
    (i : Nat) : BitSet × Bool :=
  if hc : s.contains i = true then
    ({ width := s.width
       words := Packed.clear s.words i
       size := s.size - 1
       size_words := by
         rw [Packed.size_clear, s.size_words]
       clear_above := by
         intro j hj
         rw [Packed.bit_clear, s.clear_above j hj,
           Bool.false_and]
       size_eq := by
         rw [s.size_eq, ← Packed.ones_clear hc,
           Nat.add_sub_cancel] }, true)
  else
    (s, false)

------------------------------------------------------------
-- Two Sets
------------------------------------------------------------

/- The number of common members, whatever the widths. -/
def interSize
    (s t : BitSet) : Nat :=
  Packed.ones (Packed.inter s.words t.words)

/-
  The members of the first set that the second lacks, counted
  anew.
-/
def diff
    (s t : BitSet) : BitSet where
  width := s.width
  words := Packed.diff s.words t.words
  size := Packed.ones (Packed.diff s.words t.words)
  size_words := by
    rw [Packed.size_diff, s.size_words]
  clear_above := by
    intro i hi
    rw [Packed.bit_diff, s.clear_above i hi,
      Bool.false_and]
  size_eq := rfl

end BitSet

end TwoLevel
