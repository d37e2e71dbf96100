import TwoLevel.BitSet.Word

/-
  This file defines arrays of 64-bit words as sets of indices:
  index `i` is position `i % 64` of word `i / 64`. Indices
  beyond the last word are not set.

  Key definitions include:
    * `Packed.wordCount`
    * `Packed.bit`
    * `Packed.set`
    * `Packed.clear`
    * `Packed.low`
    * `Packed.inter`
    * `Packed.diff`
    * `Packed.ones`

  Main theorems:
    * `bit_set`
    * `bit_clear`
    * `bit_low`
    * `bit_inter`
    * `bit_diff`
    * `ext_bit`
    * `ones_eq_countP`
    * `ones_low`
    * `ones_set`
    * `ones_clear`
-/

namespace TwoLevel

namespace Packed

------------------------------------------------------------
-- Reading
------------------------------------------------------------

/- The number of words that hold the given width. -/
def wordCount
    (width : Nat) : Nat :=
  (width + 63) / 64

/- Whether an index is set. -/
def bit
    (words : Array UInt64)
    (i : Nat) : Bool :=
  Word.bit (words[i / 64]?.getD 0) (i % 64)

theorem bit_eq_false_of_le
    {words : Array UInt64}
    {i : Nat}
    (h : 64 * words.size ≤ i) :
    bit words i = false := by
  have hSize : words.size ≤ i / 64 := by omega
  simp [bit, hSize]

/- No index is set in words that are zero. -/
theorem bit_replicate_zero
    (count i : Nat) :
    bit (Array.replicate count 0) i = false := by
  unfold bit
  rw [Array.getElem?_replicate]
  split <;> simp

/- Arrays of one size with the same indices set are equal. -/
theorem ext_bit
    {v w : Array UInt64}
    (hSize : v.size = w.size)
    (h : ∀ i, bit v i = bit w i) :
    v = w := by
  apply Array.ext hSize
  intro k hv hw
  apply Word.ext_bit
  intro i hi
  have hk := h (64 * k + i)
  have hDiv : (64 * k + i) / 64 = k := by omega
  have hMod : (64 * k + i) % 64 = i := by omega
  simpa [bit, hDiv, hMod, hv, hw] using hk

------------------------------------------------------------
-- Writing
------------------------------------------------------------

/- Set an index. -/
def set
    (words : Array UInt64)
    (i : Nat) : Array UInt64 :=
  words.modify (i / 64) (· ||| Word.single (i % 64))

/- Clear an index. -/
def clear
    (words : Array UInt64)
    (i : Nat) : Array UInt64 :=
  words.modify (i / 64) (· &&& ~~~ Word.single (i % 64))

@[simp] theorem size_set
    (words : Array UInt64)
    (i : Nat) :
    (set words i).size = words.size := by
  simp [set]

@[simp] theorem size_clear
    (words : Array UInt64)
    (i : Nat) :
    (clear words i).size = words.size := by
  simp [clear]

/- Indices are equal when word and position are. -/
private theorem decide_eq_split
    (i j : Nat) :
    decide (j = i) =
      (decide (i / 64 = j / 64) &&
        decide (j % 64 = i % 64)) := by
  rw [Bool.eq_iff_iff]
  simp only [Bool.and_eq_true, decide_eq_true_eq]
  omega

theorem bit_set
    {words : Array UInt64}
    {i : Nat}
    (hi : i < 64 * words.size)
    (j : Nat) :
    bit (set words i) j =
      (bit words j || decide (j = i)) := by
  have hj : j % 64 < 64 := Nat.mod_lt j (by omega)
  have hi' : i % 64 < 64 := Nat.mod_lt i (by omega)
  rw [decide_eq_split]
  unfold bit set
  rw [Array.getElem?_modify]
  by_cases h : i / 64 = j / 64
  · have hSize : j / 64 < words.size := by omega
    simp [h, hSize, Word.bit_or hj, Word.bit_single hi' hj]
  · simp [h]

theorem bit_clear
    (words : Array UInt64)
    (i j : Nat) :
    bit (clear words i) j =
      (bit words j && !decide (j = i)) := by
  have hj : j % 64 < 64 := Nat.mod_lt j (by omega)
  have hi : i % 64 < 64 := Nat.mod_lt i (by omega)
  rw [decide_eq_split]
  unfold bit clear
  rw [Array.getElem?_modify]
  by_cases h : i / 64 = j / 64
  · by_cases hSize : j / 64 < words.size
    · simp [h, hSize, Word.bit_and hj, Word.bit_not hj,
        Word.bit_single hi hj]
    · simp [h, hSize]
  · simp [h]

------------------------------------------------------------
-- Whole Arrays
------------------------------------------------------------

/- The array in which exactly the indices below are set. -/
def low
    (width : Nat) : Array UInt64 :=
  (Array.range (wordCount width)).map
    (fun k => Word.low (min 64 (width - 64 * k)))

/- The indices set in both arrays. -/
def inter
    (v w : Array UInt64) : Array UInt64 :=
  Array.zipWith (· &&& ·) v w

/-
  The indices set in the first array and not in the second.
  Words that the second array lacks are kept.
-/
def diff
    (v w : Array UInt64) : Array UInt64 :=
  v.mapIdx (fun k word => word &&& ~~~ (w[k]?.getD 0))

@[simp] theorem size_low
    (width : Nat) :
    (low width).size = wordCount width := by
  simp [low]

@[simp] theorem size_diff
    (v w : Array UInt64) :
    (diff v w).size = v.size := by
  simp [diff]

theorem bit_low
    (width i : Nat) :
    bit (low width) i = decide (i < width) := by
  have hi : i % 64 < 64 := Nat.mod_lt i (by omega)
  unfold bit low
  by_cases h : i / 64 < wordCount width
  · have hMin : min 64 (width - 64 * (i / 64)) ≤ 64 :=
      Nat.min_le_left _ _
    simp only [Array.getElem?_map, Array.getElem?_range, h,
      if_true, Option.map_some, Option.getD_some,
      Word.bit_low hMin hi]
    rw [Bool.eq_iff_iff]
    simp only [decide_eq_true_eq]
    omega
  · have hGe : ¬ i < width := by
      unfold wordCount at h
      omega
    simp [h, hGe]

theorem bit_inter
    (v w : Array UInt64)
    (i : Nat) :
    bit (inter v w) i = (bit v i && bit w i) := by
  have hi : i % 64 < 64 := Nat.mod_lt i (by omega)
  unfold bit inter
  rw [Array.getElem?_zipWith]
  cases v[i / 64]? with
  | none => simp
  | some x =>
      cases w[i / 64]? with
      | none => simp
      | some y => simp [Word.bit_and hi]

theorem bit_diff
    (v w : Array UInt64)
    (i : Nat) :
    bit (diff v w) i = (bit v i && !bit w i) := by
  have hi : i % 64 < 64 := Nat.mod_lt i (by omega)
  unfold bit diff
  rw [Array.getElem?_mapIdx]
  cases v[i / 64]? with
  | none => simp
  | some x => simp [Word.bit_and hi, Word.bit_not hi]

------------------------------------------------------------
-- Counting
------------------------------------------------------------

/- The number of indices that are set. -/
def ones
    (words : Array UInt64) : Nat :=
  words.foldl (fun n w => n + Word.ones w) 0

private theorem foldl_ones_eq
    (ws : List UInt64)
    (start : Nat) :
    ws.foldl (fun n w => n + Word.ones w) start =
      start + (List.range (64 * ws.length)).countP
        (fun i =>
          Word.bit (ws[i / 64]?.getD 0) (i % 64)) := by
  induction ws generalizing start with
  | nil => simp
  | cons w ws ih =>
      have hLen :
          64 * (w :: ws).length = 64 + 64 * ws.length := by
        simp only [List.length_cons]
        omega
      have hHead :
          (List.range 64).countP
              (fun i => Word.bit
                ((w :: ws)[i / 64]?.getD 0) (i % 64)) =
            Word.ones w := by
        rw [Word.ones_eq_countP]
        apply List.countP_congr
        intro i hi
        have hi' := List.mem_range.1 hi
        have hDiv : i / 64 = 0 := by omega
        have hMod : i % 64 = i := by omega
        simp [hDiv, hMod]
      have hTail :
          (List.range (64 * ws.length)).countP
              ((fun i => Word.bit
                ((w :: ws)[i / 64]?.getD 0) (i % 64)) ∘
                  (64 + ·)) =
            (List.range (64 * ws.length)).countP
              (fun i => Word.bit
                (ws[i / 64]?.getD 0) (i % 64)) := by
        apply List.countP_congr
        intro i _
        have hDiv : (64 + i) / 64 = i / 64 + 1 := by omega
        have hMod : (64 + i) % 64 = i % 64 := by omega
        simp [Function.comp, hDiv, hMod]
      rw [List.foldl_cons, ih, hLen, List.range_add,
        List.countP_append, List.countP_map, hHead, hTail,
        Nat.add_assoc]

theorem ones_eq_countP
    (words : Array UInt64) :
    ones words =
      (List.range (64 * words.size)).countP (bit words) := by
  unfold ones
  rw [← Array.foldl_toList, foldl_ones_eq, Nat.zero_add]
  simp only [Array.length_toList, Array.getElem?_toList]
  rfl

/- Nothing is counted from where no index is set. -/
theorem countP_range_le
    {p : Nat → Bool}
    {m n : Nat}
    (hmn : m ≤ n)
    (h : ∀ i, m ≤ i → p i = false) :
    (List.range n).countP p =
      ((List.range m).filter p).length := by
  rcases Nat.le.dest hmn with ⟨d, rfl⟩
  rw [List.range_add, List.countP_append,
    List.countP_eq_length_filter]
  have hZero :
      ((List.range d).map (m + ·)).countP p = 0 := by
    rw [List.countP_eq_zero]
    intro i hi
    rcases List.mem_map.1 hi with ⟨j, _, rfl⟩
    simp [h (m + j) (by omega)]
  rw [hZero, Nat.add_zero]

theorem ones_replicate_zero
    (count : Nat) :
    ones (Array.replicate count 0) = 0 := by
  rw [ones_eq_countP, List.countP_eq_zero]
  intro i _
  rw [bit_replicate_zero]
  exact Bool.false_ne_true

theorem ones_low
    (width : Nat) :
    ones (low width) = width := by
  have hLe : width ≤ 64 * wordCount width := by
    unfold wordCount
    omega
  have hClear :
      ∀ i, width ≤ i → decide (i < width) = false := by
    intro i hi
    simp [hi]
  have hAll :
      (List.range width).filter (fun i => decide (i < width)) =
        List.range width := by
    rw [List.filter_eq_self]
    intro i hi
    exact decide_eq_true (List.mem_range.1 hi)
  rw [ones_eq_countP, size_low, funext (bit_low width),
    countP_range_le hLe hClear, hAll, List.length_range]

private theorem countP_or_single
    {p : Nat → Bool}
    {i n : Nat}
    (hi : i < n)
    (hp : p i = false) :
    (List.range n).countP (fun j => p j || decide (j = i)) =
      (List.range n).countP p + 1 := by
  induction n with
  | zero => omega
  | succ n ih =>
      rw [List.range_succ, List.countP_append,
        List.countP_append]
      by_cases h : i = n
      · subst h
        have hLow :
            (List.range i).countP
                (fun j => p j || decide (j = i)) =
              (List.range i).countP p := by
          apply List.countP_congr
          intro j hj
          have := List.mem_range.1 hj
          have hNe : j ≠ i := by omega
          simp [hNe]
        rw [hLow]
        simp [hp]
      · have hNe : n ≠ i := fun hni => h hni.symm
        rw [ih (by omega)]
        simp [hNe]
        omega

/- Setting an index that was clear adds one to the count. -/
theorem ones_set
    {words : Array UInt64}
    {i : Nat}
    (hi : i < 64 * words.size)
    (hClear : bit words i = false) :
    ones (set words i) = ones words + 1 := by
  rw [ones_eq_countP, ones_eq_countP, size_set,
    ← countP_or_single hi hClear]
  apply List.countP_congr
  intro j _
  rw [bit_set hi]

/- Clearing an index that was set takes one off the count. -/
theorem ones_clear
    {words : Array UInt64}
    {i : Nat}
    (hSet : bit words i = true) :
    ones (clear words i) + 1 = ones words := by
  have hi : i < 64 * words.size := by
    apply Nat.lt_of_not_le
    intro h
    rw [bit_eq_false_of_le h] at hSet
    cases hSet
  have hClear : bit (clear words i) i = false := by
    simp [bit_clear]
  have hi' : i < 64 * (clear words i).size := by
    simpa using hi
  rw [← ones_set hi' hClear]
  congr 1
  apply ext_bit (by simp)
  intro j
  rw [bit_set hi', bit_clear]
  by_cases h : j = i
  · subst h
    simp [hSet]
  · simp [h]

end Packed

end TwoLevel
