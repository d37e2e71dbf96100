import Mathlib.Data.List.Sort
import TwoLevel.BitSet.Cursor
import TwoLevel.BitSet.Lemmas

/-
  This file proves that a cursor lists the members of a set:
  each of them once, in ascending order, and nothing else. So
  removing the members listed without a property keeps those
  that have it.

  What a cursor has still to list are the positions left in
  its current word and all positions of later words. Going on
  to the next word changes nothing about that, and listing an
  index takes away just that index, the least one.

  Key definitions include:
    * `BitSet.Cursor.pending`

  Main theorems:
    * `pending_eq_false_of_next`
    * `pending_of_next`
    * `mem_collect_iff`
    * `collect_ascending`
    * `members_eq_toList`
    * `next_ofSet`
    * `contains_retain`
-/

namespace TwoLevel

namespace BitSet

namespace Cursor

------------------------------------------------------------
-- What is Left to List
------------------------------------------------------------

/- Whether an index has still to be listed. -/
def pending
    (cursor : Cursor)
    (i : Nat) : Bool :=
  if i / 64 = cursor.place then
    Word.bit cursor.current (i % 64)
  else
    decide (cursor.place < i / 64) && Packed.bit cursor.words i

section Steps

variable {cursor after : Cursor}
variable {index : Nat}

theorem pending_advance
    (hZero : cursor.current = 0)
    (h : cursor.place + 1 < cursor.words.size)
    (i : Nat) :
    (cursor.advance h).pending i = cursor.pending i := by
  unfold pending advance
  dsimp only
  by_cases hHere : i / 64 = cursor.place
  · have hNext : i / 64 ≠ cursor.place + 1 := by omega
    have hBelow : ¬ cursor.place + 1 < i / 64 := by omega
    rw [if_pos hHere, if_neg hNext, hZero, Word.bit_zero]
    simp [hBelow]
  · rw [if_neg hHere]
    by_cases hNext : i / 64 = cursor.place + 1
    · rw [if_pos hNext]
      simp [Packed.bit, hNext, h]
    · rw [if_neg hNext]
      congr 1
      rw [Bool.eq_iff_iff, decide_eq_true_eq,
        decide_eq_true_eq]
      omega

theorem pending_drop
    (hNe : cursor.current ≠ 0)
    (i : Nat) :
    cursor.drop.pending i =
      (cursor.pending i &&
        !decide (i = 64 * cursor.place +
          Word.least cursor.current)) := by
  have hLeast := Word.least_lt hNe
  have hi : i % 64 < 64 := Nat.mod_lt i (by omega)
  unfold pending drop
  dsimp only
  by_cases hHere : i / 64 = cursor.place
  · rw [if_pos hHere, if_pos hHere,
      Word.bit_dropLeast hNe hi]
    congr 2
    rw [decide_eq_decide]
    omega
  · have hOther :
        i ≠ 64 * cursor.place +
          Word.least cursor.current := by
      omega
    rw [if_neg hHere, if_neg hHere]
    simp [hOther]

theorem pending_least
    (hNe : cursor.current ≠ 0) :
    cursor.pending (64 * cursor.place +
      Word.least cursor.current) = true := by
  have hLeast := Word.least_lt hNe
  have hDiv :
      (64 * cursor.place + Word.least cursor.current) / 64 =
        cursor.place := by
    omega
  have hMod :
      (64 * cursor.place + Word.least cursor.current) % 64 =
        Word.least cursor.current := by
    omega
  rw [pending, if_pos hDiv, hMod]
  exact Word.bit_least hNe

theorem le_of_pending
    (hNe : cursor.current ≠ 0)
    {i : Nat}
    (hi : cursor.pending i = true) :
    64 * cursor.place + Word.least cursor.current ≤ i := by
  have hLeast := Word.least_lt hNe
  unfold pending at hi
  split at hi
  · apply Nat.le_of_not_lt
    intro hLt
    have hBelow : i % 64 < Word.least cursor.current := by
      omega
    rw [Word.bit_eq_false_of_lt_least hNe hBelow] at hi
    cases hi
  · rw [Bool.and_eq_true, decide_eq_true_eq] at hi
    omega

/- A cursor without answer has nothing left to list. -/
theorem pending_eq_false_of_next
    (h : cursor.next = (none, after))
    (i : Nat) :
    cursor.pending i = false := by
  fun_induction next cursor with
  | case1 cursor hNe => cases h
  | case2 cursor hZero hLt ih =>
      rw [← pending_advance (not_not.1 hZero) hLt]
      exact ih h
  | case3 cursor hZero hLast =>
      unfold pending
      split
      · rw [not_not.1 hZero, Word.bit_zero]
      · rw [Bool.and_eq_false_iff]
        by_cases hLt : cursor.place < i / 64
        · exact Or.inr (Packed.bit_eq_false_of_le (by omega))
        · exact Or.inl (decide_eq_false hLt)

/- The index listed is the least one left, and it goes. -/
theorem pending_of_next
    (h : cursor.next = (some index, after)) :
    cursor.pending index = true ∧
      (∀ i, cursor.pending i = true → index ≤ i) ∧
      ∀ i, after.pending i =
        (cursor.pending i && !decide (i = index)) := by
  fun_induction next cursor with
  | case1 cursor hNe =>
      cases h
      exact ⟨pending_least hNe,
        fun _ hi => le_of_pending hNe hi, pending_drop hNe⟩
  | case2 cursor hZero hLt ih =>
      have hSame := pending_advance (not_not.1 hZero) hLt
      rcases ih h with ⟨hIndex, hLeast, hAfter⟩
      refine ⟨?_, fun i hi => ?_, fun i => ?_⟩
      · rw [← hSame]
        exact hIndex
      · rw [← hSame] at hi
        exact hLeast i hi
      · rw [hAfter, hSame]
  | case3 cursor hZero hLast => cases h

end Steps

------------------------------------------------------------
-- Whole Listings
------------------------------------------------------------

theorem mem_collect_iff
    {cursor : Cursor}
    {i : Nat} :
    i ∈ cursor.collect ↔ cursor.pending i = true := by
  fun_induction collect cursor with
  | case1 cursor after h =>
      rw [pending_eq_false_of_next h]
      simp
  | case2 cursor index after h _ ih =>
      rcases pending_of_next h with ⟨hIndex, _, hAfter⟩
      rw [List.mem_cons, ih, hAfter]
      by_cases hi : i = index
      · subst hi
        simp [hIndex]
      · simp [hi]

theorem head?_collect
    (cursor : Cursor) :
    cursor.collect.head? = cursor.next.1 := by
  fun_induction collect cursor with
  | case1 cursor after h => rw [h, List.head?_nil]
  | case2 cursor index after h _ ih =>
      rw [h, List.head?_cons]

theorem collect_ascending
    (cursor : Cursor) :
    cursor.collect.Pairwise (· < ·) := by
  fun_induction collect cursor with
  | case1 cursor after h => exact List.Pairwise.nil
  | case2 cursor index after h _ ih =>
      rcases pending_of_next h with ⟨_, hLeast, hAfter⟩
      refine List.pairwise_cons.2 ⟨fun i hi => ?_, ih⟩
      rw [mem_collect_iff, hAfter, Bool.and_eq_true] at hi
      have hLe := hLeast i hi.1
      have hNe : i ≠ index := by simpa using hi.2
      omega

end Cursor

------------------------------------------------------------
-- Listing a Set
------------------------------------------------------------

theorem pending_ofSet
    (set : BitSet)
    (i : Nat) :
    (Cursor.ofSet set).pending i = set.contains i := by
  unfold Cursor.pending Cursor.ofSet contains
  dsimp only
  split
  · rename_i hFirst
    rw [Packed.bit, hFirst]
  · rename_i hLater
    have hLt : 0 < i / 64 := Nat.pos_of_ne_zero hLater
    simp [hLt]

/- Words are visited as indices are tried one by one. -/
theorem members_eq_toList
    (set : BitSet) :
    set.members = set.toList := by
  apply (Cursor.collect_ascending _).eq_of_mem_iff
    set.toList_ascending
  intro i
  rw [Cursor.mem_collect_iff, pending_ofSet, mem_toList_iff]

/- The first index listed is the least member. -/
theorem next_ofSet
    (set : BitSet) :
    (Cursor.ofSet set).next.1 = set.first? := by
  have hHead := Cursor.head?_collect (Cursor.ofSet set)
  rw [← hHead, ← members, members_eq_toList, toList,
    List.head?_filter, first?]

------------------------------------------------------------
-- Keeping Some Members
------------------------------------------------------------

@[simp] theorem width_retain
    (set : BitSet)
    (keep : Nat → Bool) :
    (set.retain keep).width = set.width :=
  (foldl_erase set _).1

@[simp] theorem contains_retain
    (set : BitSet)
    (keep : Nat → Bool)
    (i : Nat) :
    (set.retain keep).contains i =
      (set.contains i && keep i) := by
  rw [retain, (foldl_erase set _).2, members_eq_toList]
  cases hMember : set.contains i with
  | false => rfl
  | true =>
      rw [Bool.eq_iff_iff]
      simp [hMember]

end BitSet

end TwoLevel
