/-
  This file defines how a 64-bit word holds a set of bit
  positions: reading a position, the word with one position
  set, the word with the lowest positions set, counting the
  positions that are set, and finding and clearing the lowest
  of them.

  Key definitions include:
    * `Word.bit`
    * `Word.single`
    * `Word.low`
    * `Word.ones`
    * `Word.least`
    * `Word.dropLeast`

  Main theorems:
    * `bit_and`
    * `bit_or`
    * `bit_not`
    * `bit_single`
    * `bit_low`
    * `ext_bit`
    * `ones_eq_countP`
    * `bit_least`
    * `bit_eq_false_of_lt_least`
    * `bit_dropLeast`
    * `least_lt_least_dropLeast`
-/

namespace TwoLevel

namespace Word

------------------------------------------------------------
-- Positions of a Word
------------------------------------------------------------

/- Whether a position below 64 is set. -/
def bit
    (w : UInt64)
    (i : Nat) : Bool :=
  (w >>> i.toUInt64) &&& 1 != 0

/- The word in which exactly one position is set. -/
def single
    (i : Nat) : UInt64 :=
  1 <<< i.toUInt64

/- The word in which exactly the lowest positions are set. -/
def low
    (count : Nat) : UInt64 :=
  if count < 64 then single count - 1 else 0 - 1

private theorem toNat_shiftRight
    (w : UInt64)
    {i : Nat}
    (hi : i < 64) :
    (w >>> i.toUInt64).toNat = w.toNat >>> i := by
  have hMod : i.toUInt64.toNat % 64 = i := by
    rw [Nat.toUInt64_eq, UInt64.toNat_ofNat']
    omega
  rw [UInt64.toNat_shiftRight, hMod]

/- Reading a position is reading a binary digit. -/
theorem bit_eq_testBit
    {w : UInt64}
    {i : Nat}
    (hi : i < 64) :
    bit w i = w.toNat.testBit i := by
  have h :
      ((w >>> i.toUInt64) &&& 1 = 0) ↔
        (w.toNat >>> i) &&& 1 = 0 := by
    rw [← UInt64.toNat_inj, UInt64.toNat_and,
      toNat_shiftRight w hi]
    rfl
  unfold bit
  rw [Nat.testBit, Bool.eq_iff_iff]
  simp only [bne_iff_ne, ne_eq, Nat.and_comm 1]
  rw [h]

@[simp] theorem bit_zero
    (i : Nat) :
    bit 0 i = false := by
  simp [bit]

theorem bit_and
    {v w : UInt64}
    {i : Nat}
    (hi : i < 64) :
    bit (v &&& w) i = (bit v i && bit w i) := by
  simp [bit_eq_testBit hi]

theorem bit_or
    {v w : UInt64}
    {i : Nat}
    (hi : i < 64) :
    bit (v ||| w) i = (bit v i || bit w i) := by
  simp [bit_eq_testBit hi]

theorem bit_not
    {w : UInt64}
    {i : Nat}
    (hi : i < 64) :
    bit (~~~ w) i = !bit w i := by
  rw [bit_eq_testBit hi, bit_eq_testBit hi,
    ← UInt64.toNat_toBitVec, ← UInt64.toNat_toBitVec,
    UInt64.toBitVec_not, BitVec.testBit_toNat,
    BitVec.testBit_toNat, BitVec.getLsbD_not]
  simp [hi]

theorem toNat_single
    {i : Nat}
    (hi : i < 64) :
    (single i).toNat = 1 <<< i := by
  have hPow : 2 ^ i < 2 ^ 64 :=
    Nat.pow_lt_pow_right (by omega) hi
  have hMod : i.toUInt64.toNat % 64 = i := by
    rw [Nat.toUInt64_eq, UInt64.toNat_ofNat']
    omega
  unfold single
  rw [UInt64.toNat_shiftLeft, hMod]
  show 1 <<< i % 2 ^ 64 = 1 <<< i
  rw [Nat.one_shiftLeft, Nat.mod_eq_of_lt hPow]

theorem bit_single
    {i j : Nat}
    (hi : i < 64)
    (hj : j < 64) :
    bit (single i) j = decide (j = i) := by
  rw [bit_eq_testBit hj, toNat_single hi,
    Nat.one_shiftLeft, Nat.testBit_two_pow]
  simp [eq_comm]

private theorem toNat_low
    {count : Nat}
    (h : count ≤ 64) :
    (low count).toNat = 1 <<< count - 1 := by
  unfold low
  split
  · rename_i hc
    have h1 : 1 ≤ single count := by
      rw [UInt64.le_iff_toNat_le, toNat_single hc,
        Nat.one_shiftLeft]
      exact Nat.one_le_two_pow
    rw [UInt64.toNat_sub_of_le _ _ h1, toNat_single hc]
    rfl
  · have : count = 64 := by omega
    subst this
    rfl

theorem bit_low
    {count i : Nat}
    (hc : count ≤ 64)
    (hi : i < 64) :
    bit (low count) i = decide (i < count) := by
  rw [bit_eq_testBit hi, toNat_low hc, Nat.one_shiftLeft,
    Nat.testBit_two_pow_sub_one]

/- Words with the same positions set are equal. -/
theorem ext_bit
    {v w : UInt64}
    (h : ∀ i < 64, bit v i = bit w i) :
    v = w := by
  apply UInt64.toNat_inj.1
  apply Nat.eq_of_testBit_eq
  intro i
  by_cases hi : i < 64
  · rw [← bit_eq_testBit hi, ← bit_eq_testBit hi]
    exact h i hi
  · have hPow : 2 ^ 64 ≤ 2 ^ i :=
      Nat.pow_le_pow_right (by omega) (by omega)
    rw [Nat.testBit_lt_two_pow
        (Nat.lt_of_lt_of_le v.toNat_lt hPow),
      Nat.testBit_lt_two_pow
        (Nat.lt_of_lt_of_le w.toNat_lt hPow)]

------------------------------------------------------------
-- Counting
------------------------------------------------------------

/-
  Count the set positions below a bound, from the lowest up.
  Nothing is left to count once the word is zero.
-/
def onesBelow : Nat → UInt64 → Nat
  | 0, _ => 0
  | n + 1, w =>
      if w = 0 then 0
      else (if w &&& 1 = 0 then 0 else 1) +
        onesBelow n (w >>> 1)

/- The number of positions that are set. -/
def ones
    (w : UInt64) : Nat :=
  onesBelow 64 w

private theorem onesBelow_eq_countP
    (n : Nat)
    (w : UInt64) :
    onesBelow n w =
      (List.range n).countP w.toNat.testBit := by
  induction n generalizing w with
  | zero => rfl
  | succ n ih =>
      unfold onesBelow
      split
      · rename_i h
        subst h
        symm
        apply List.countP_eq_zero.2
        simp
      · rw [List.range_succ_eq_map, List.countP_cons,
          List.countP_map, ih, Nat.add_comm]
        congr 1
        · apply List.countP_congr
          intro i _
          rw [UInt64.toNat_shiftRight]
          simp [Nat.testBit_shiftRight, Nat.add_comm]
        · have h :
              w &&& 1 = 0 ↔ w.toNat.testBit 0 = false := by
            rw [← UInt64.toNat_inj, UInt64.toNat_and]
            simp [Nat.testBit_zero]
          simp only [h]
          cases w.toNat.testBit 0 <;> simp

theorem ones_eq_countP
    (w : UInt64) :
    ones w = (List.range 64).countP (bit w) := by
  rw [ones, onesBelow_eq_countP]
  apply List.countP_congr
  intro i hi
  rw [bit_eq_testBit (List.mem_range.1 hi)]

------------------------------------------------------------
-- The Lowest Position
------------------------------------------------------------

/- The number of clear positions below the lowest set one. -/
def least
    (w : UInt64) : Nat :=
  w.toBitVec.ctz.toNat

/-
  Clear the lowest position that is set. Taking one off a word
  turns that position and those below, so the rest is common
  to both.
-/
def dropLeast
    (w : UInt64) : UInt64 :=
  w &&& (w - 1)

theorem least_lt
    {w : UInt64}
    (h : w ≠ 0) :
    least w < 64 := by
  have hNe : w.toBitVec ≠ 0 := fun hZero =>
    h (UInt64.toBitVec_inj.1 hZero)
  exact BitVec.ctz_lt_iff_ne_zero.2 hNe

private theorem testBit_least
    {w : UInt64}
    (h : w ≠ 0) :
    w.toNat.testBit (least w) = true := by
  have hNe : w.toBitVec ≠ 0 := fun hZero =>
    h (UInt64.toBitVec_inj.1 hZero)
  exact BitVec.getLsbD_true_ctz_of_ne_zero hNe

private theorem testBit_of_lt_least
    {w : UInt64}
    {i : Nat}
    (hi : i < least w) :
    w.toNat.testBit i = false :=
  BitVec.getLsbD_false_of_lt_ctz hi

theorem bit_least
    {w : UInt64}
    (h : w ≠ 0) :
    bit w (least w) = true := by
  rw [bit_eq_testBit (least_lt h)]
  exact testBit_least h

theorem bit_eq_false_of_lt_least
    {w : UInt64}
    {i : Nat}
    (h : w ≠ 0)
    (hi : i < least w) :
    bit w i = false := by
  have hLt := least_lt h
  rw [bit_eq_testBit (by omega)]
  exact testBit_of_lt_least hi

/-
  By induction on the lowest digit that is one. Taking one off
  clears that digit and sets those below it.
-/
private theorem testBit_pred
    {n low : Nat}
    (hSet : n.testBit low = true)
    (hClear : ∀ i < low, n.testBit i = false)
    (i : Nat) :
    (n - 1).testBit i =
      (decide (i < low) ||
        (n.testBit i && !decide (i = low))) := by
  induction low generalizing n i with
  | zero =>
      rw [Nat.testBit_zero, decide_eq_true_eq] at hSet
      cases i with
      | zero =>
          have hEven : ¬ (n - 1) % 2 = 1 := by omega
          simp [hEven]
      | succ i =>
          have hHalf : (n - 1) / 2 = n / 2 := by omega
          rw [Nat.testBit_succ, Nat.testBit_succ, hHalf]
          simp
  | succ low ih =>
      have hEven := hClear 0 (by omega)
      rw [Nat.testBit_zero, decide_eq_false_iff_not] at hEven
      rw [Nat.testBit_succ] at hSet
      have hPos : n / 2 ≠ 0 := by
        intro hZero
        rw [hZero, Nat.zero_testBit] at hSet
        cases hSet
      cases i with
      | zero =>
          have hOdd : (n - 1) % 2 = 1 := by omega
          simp [hOdd]
      | succ i =>
          have hHalf : (n - 1) / 2 = n / 2 - 1 := by omega
          have hRest :
              ∀ i < low, (n / 2).testBit i = false := by
            intro i hi
            rw [← Nat.testBit_succ]
            exact hClear (i + 1) (by omega)
          rw [Nat.testBit_succ, Nat.testBit_succ, hHalf,
            ih hSet hRest]
          simp

theorem bit_dropLeast
    {w : UInt64}
    {i : Nat}
    (h : w ≠ 0)
    (hi : i < 64) :
    bit (dropLeast w) i =
      (bit w i && !decide (i = least w)) := by
  have hNe : w.toNat ≠ 0 := fun hZero =>
    h (UInt64.toNat_inj.1 hZero)
  have hOne : (1 : UInt64) ≤ w := by
    rw [UInt64.le_iff_toNat_le]
    exact Nat.one_le_iff_ne_zero.2 hNe
  have hPred : (w - 1).toNat = w.toNat - 1 :=
    UInt64.toNat_sub_of_le _ _ hOne
  rw [dropLeast, bit_and hi, bit_eq_testBit hi,
    bit_eq_testBit hi, hPred,
    testBit_pred (testBit_least h)
      (fun _ hLt => testBit_of_lt_least hLt)]
  by_cases hLow : i < least w
  · rw [testBit_of_lt_least hLow]
    rfl
  · simp [hLow]

theorem least_zero :
    least 0 = 64 := by
  decide +kernel

/- The position that is the lowest next lies above. -/
theorem least_lt_least_dropLeast
    {w : UInt64}
    (h : w ≠ 0) :
    least w < least (dropLeast w) := by
  have hLt := least_lt h
  by_cases hZero : dropLeast w = 0
  · rw [hZero, least_zero]
    exact hLt
  · have hNext := bit_least hZero
    rw [bit_dropLeast h (least_lt hZero),
      Bool.and_eq_true] at hNext
    apply Nat.lt_of_not_le
    intro hLe
    rcases Nat.lt_or_eq_of_le hLe with hBelow | hEq
    · rw [bit_eq_false_of_lt_least h hBelow] at hNext
      exact Bool.false_ne_true hNext.1
    · rw [hEq] at hNext
      simp at hNext

end Word

end TwoLevel
