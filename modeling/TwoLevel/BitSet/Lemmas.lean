import TwoLevel.BitSet.Basic

/-
  This file says what each operation on bit sets does to the
  members, to their number and to the width.

  Main theorems:
    * `ext_contains`
    * `contains_add`
    * `contains_erase`
    * `foldl_erase`
    * `ofList_of_forall_lt`
    * `contains_diff`
    * `mem_toList_iff`
    * `size_eq_length`
    * `interSize_eq_length`
-/

namespace TwoLevel

namespace BitSet

------------------------------------------------------------
-- Members and Equality
------------------------------------------------------------

theorem lt_width_of_contains
    {s : BitSet}
    {i : Nat}
    (h : s.contains i = true) :
    i < s.width := by
  apply Nat.lt_of_not_le
  intro hLe
  rw [contains, s.clear_above i hLe] at h
  cases h

/- Sets of one width with the same members are equal. -/
theorem ext_contains
    {s t : BitSet}
    (hWidth : s.width = t.width)
    (h : ∀ i, s.contains i = t.contains i) :
    s = t := by
  have hWords : s.words = t.words := by
    apply Packed.ext_bit
    · rw [s.size_words, t.size_words, hWidth]
    · exact h
  cases s with
  | mk _ _ _ _ _ hs =>
      cases t with
      | mk _ _ _ _ _ ht =>
          subst hWidth
          subst hWords
          simp [hs, ht]

@[simp] theorem mem_toList_iff
    {s : BitSet}
    {i : Nat} :
    i ∈ s.toList ↔ s.contains i = true := by
  simp only [toList, List.mem_filter, List.mem_range]
  exact ⟨fun h => h.2,
    fun h => ⟨lt_width_of_contains h, h⟩⟩

/- The members are listed in strictly ascending order. -/
theorem toList_ascending
    (s : BitSet) :
    s.toList.Pairwise (· < ·) :=
  List.Pairwise.filter _ List.pairwise_lt_range

/- The number kept is the number of members. -/
theorem size_eq_length
    (s : BitSet) :
    s.size = s.toList.length := by
  rw [s.size_eq, Packed.ones_eq_countP]
  exact Packed.countP_range_le (width_le_words s) s.clear_above

theorem isEmpty_iff
    {s : BitSet} :
    s.isEmpty = true ↔ ∀ i, s.contains i = false := by
  rw [isEmpty, beq_iff_eq, size_eq_length,
    List.length_eq_zero_iff, List.eq_nil_iff_forall_not_mem]
  simp

------------------------------------------------------------
-- One Set
------------------------------------------------------------

@[simp] theorem width_empty
    (width : Nat) :
    (empty width).width = width :=
  rfl

@[simp] theorem contains_empty
    (width i : Nat) :
    (empty width).contains i = false :=
  Packed.bit_replicate_zero _ i

@[simp] theorem width_full
    (width : Nat) :
    (full width).width = width :=
  rfl

@[simp] theorem contains_full
    (width i : Nat) :
    (full width).contains i = decide (i < width) :=
  Packed.bit_low width i

@[simp] theorem width_add
    (s : BitSet)
    (i : Nat)
    (hi : i < s.width) :
    (s.add i hi).width = s.width := by
  unfold add
  split <;> rfl

@[simp] theorem contains_add
    (s : BitSet)
    (i : Nat)
    (hi : i < s.width)
    (j : Nat) :
    (s.add i hi).contains j =
      (s.contains j || decide (j = i)) := by
  unfold add
  split
  · rename_i h
    by_cases hj : j = i
    · subst hj
      simp [h]
    · simp [hj]
  · exact Packed.bit_set (lt_words_of_lt_width hi) j

@[simp] theorem width_erase
    (s : BitSet)
    (i : Nat) :
    (s.erase i).1.width = s.width := by
  unfold erase
  split <;> rfl

@[simp] theorem contains_erase
    (s : BitSet)
    (i j : Nat) :
    (s.erase i).1.contains j =
      (s.contains j && !decide (j = i)) := by
  unfold erase
  split
  · exact Packed.bit_clear s.words i j
  · rename_i h
    by_cases hj : j = i
    · subst hj
      simp [h]
    · simp [hj]

@[simp] theorem erase_snd
    (s : BitSet)
    (i : Nat) :
    (s.erase i).2 = s.contains i := by
  unfold erase
  split
  · rename_i h
    simp [h]
  · rename_i h
    simp [h]

/- Indices are removed one by one. -/
theorem foldl_erase
    (s : BitSet)
    (is : List Nat) :
    (is.foldl (fun t i => (t.erase i).1) s).width =
        s.width ∧
      ∀ j,
        (is.foldl (fun t i => (t.erase i).1) s).contains j =
          (s.contains j && !is.contains j) := by
  induction is generalizing s with
  | nil => simp
  | cons i is ih =>
      rw [List.foldl_cons]
      refine ⟨?_, fun j => ?_⟩
      · rw [(ih _).1, width_erase]
      · rw [(ih _).2, contains_erase, List.contains_cons,
          Bool.not_or, Bool.and_assoc]
        rfl

/- Indices leave the width as it is, refused or not. -/
@[simp] theorem width_extend
    (s : BitSet)
    (is : List Nat) :
    (s.extend is).1.width = s.width := by
  induction is generalizing s with
  | nil => rfl
  | cons i is ih =>
      rw [extend]
      split
      · rw [ih, width_add]
      · rfl

theorem extend_of_forall_lt
    {s : BitSet}
    {is : List Nat}
    (h : ∀ i ∈ is, i < s.width) :
    (s.extend is).2 = none ∧
      ∀ j, (s.extend is).1.contains j =
        (s.contains j || is.contains j) := by
  induction is generalizing s with
  | nil => simp [extend]
  | cons i is ih =>
      have hi : i < s.width := h i List.mem_cons_self
      have hRest :
          ∀ j ∈ is, j < (s.add i hi).width := by
        intro j hj
        rw [width_add]
        exact h j (List.mem_cons_of_mem i hj)
      have hExt :
          s.extend (i :: is) = (s.add i hi).extend is := by
        rw [extend, dif_pos hi]
      rcases ih hRest with ⟨hNone, hMem⟩
      rw [hExt]
      refine ⟨hNone, fun j => ?_⟩
      rw [hMem, contains_add, List.contains_cons,
        Bool.or_assoc]
      congr 1

theorem width_of_ofList_eq_ok
    {width : Nat}
    {is : List Nat}
    {s : BitSet}
    (h : ofList width is = .ok s) :
    s.width = width := by
  rw [ofList] at h
  split at h
  · cases h
    rw [width_extend, width_empty]
  · cases h

/- Indices below the width are never refused. -/
theorem ofList_of_forall_lt
    {width : Nat}
    {is : List Nat}
    (h : ∀ i ∈ is, i < width) :
    ∃ s, ofList width is = .ok s ∧
      s.width = width ∧
      ∀ j, s.contains j = is.contains j := by
  rcases extend_of_forall_lt (s := empty width) h with
    ⟨hNone, hMem⟩
  refine ⟨((empty width).extend is).1, ?_,
    width_extend _ _, ?_⟩
  · simp only [ofList, hNone]
  · intro j
    rw [hMem, contains_empty, Bool.false_or]

------------------------------------------------------------
-- Two Sets
------------------------------------------------------------

@[simp] theorem width_diff
    (s t : BitSet) :
    (s.diff t).width = s.width :=
  rfl

@[simp] theorem contains_diff
    (s t : BitSet)
    (i : Nat) :
    (s.diff t).contains i =
      (s.contains i && !t.contains i) :=
  Packed.bit_diff s.words t.words i

/- Common members are counted once each. -/
theorem interSize_eq_length
    (s t : BitSet) :
    s.interSize t =
      (s.toList.filter t.contains).length := by
  have hBit :
      ∀ i, Packed.bit (Packed.inter s.words t.words) i =
        (t.contains i && s.contains i) := by
    intro i
    rw [Packed.bit_inter, Bool.and_comm]
    rfl
  have hWords :
      (List.range
          (64 * (Packed.inter s.words t.words).size)).countP
          (fun i => t.contains i && s.contains i) =
        ((List.range
          (64 * (Packed.inter s.words t.words).size)).filter
          (fun i => t.contains i && s.contains i)).length :=
    List.countP_eq_length_filter
  rw [interSize, Packed.ones_eq_countP, toList,
    List.filter_filter, funext hBit, hWords]
  rw [← Packed.countP_range_le (Nat.le_max_left _ s.width) ?_,
    ← Packed.countP_range_le (Nat.le_max_right _ s.width) ?_]
  · intro i hi
    have := s.clear_above i hi
    simp [contains, this]
  · intro i hi
    rw [← hBit, Packed.bit_eq_false_of_le hi]

end BitSet

end TwoLevel
