import TwoLevel.Row.Basic

/-
  This file defines when one row stands for part of what
  another row stands for, and reads containment off the
  values: at every position the outer row either demands the
  same or demands nothing.

  Key definitions include:
    * `Value.Within`
    * `Row.Within`

  Main theorems:
    * `exists_satisfiedBy`
    * `within_cons_cons_iff`
    * `arity_eq_of_within`
    * `dontCares_le_of_within`
    * `within_antisymm`
-/

namespace TwoLevel

------------------------------------------------------------
-- Containment of Values
------------------------------------------------------------

namespace Value

/- Whatever meets the first demand meets the second. -/
def Within
    (inner outer : Value) : Prop :=
  ∀ bit, inner.accepts bit = true →
    outer.accepts bit = true

theorem within_iff
    {inner outer : Value} :
    inner.Within outer ↔
      outer = inner ∨ outer = .dontCare := by
  unfold Within
  cases inner <;> cases outer <;> decide

theorem exists_accepts
    (v : Value) :
    ∃ bit, v.accepts bit = true := by
  cases v with
  | zero => exact ⟨false, rfl⟩
  | one => exact ⟨true, rfl⟩
  | dontCare => exact ⟨false, rfl⟩

theorem eq_dontCare_of_not_isLiteral
    {v : Value}
    (h : ¬ v.isLiteral = true) :
    v = .dontCare := by
  cases v with
  | zero => exact absurd rfl h
  | one => exact absurd rfl h
  | dontCare => rfl

end Value

------------------------------------------------------------
-- Containment of Rows
------------------------------------------------------------

namespace Row

/- Every assignment of the first row satisfies the second. -/
def Within
    (inner outer : Row) : Prop :=
  ∀ assignment, inner.satisfiedBy assignment = true →
    outer.satisfiedBy assignment = true

theorem Within.refl
    (row : Row) :
    row.Within row :=
  fun _ h => h

theorem Within.trans
    {a b c : Row}
    (hab : a.Within b)
    (hbc : b.Within c) :
    a.Within c :=
  fun assignment h => hbc assignment (hab assignment h)

/- No row contradicts itself. -/
theorem exists_satisfiedBy
    (row : Row) :
    ∃ assignment, row.satisfiedBy assignment = true := by
  rcases row with ⟨values⟩
  induction values with
  | nil => exact ⟨[], rfl⟩
  | cons v vs ih =>
      rcases v.exists_accepts with ⟨bit, hBit⟩
      rcases ih with ⟨bits, hBits⟩
      refine ⟨bit :: bits, ?_⟩
      rw [satisfiedBy_cons_cons, hBit, hBits, Bool.and_self]

/- A row stands for assignments of its own length only. -/
theorem arity_eq_of_within
    {inner outer : Row}
    (h : inner.Within outer) :
    inner.arity = outer.arity := by
  rcases inner.exists_satisfiedBy with ⟨assignment, hInner⟩
  have hOuter := h assignment hInner
  rw [← length_eq_of_satisfiedBy hInner,
    ← length_eq_of_satisfiedBy hOuter]

theorem within_cons_cons_iff
    {v w : Value}
    {vs ws : List Value} :
    Within ⟨v :: vs⟩ ⟨w :: ws⟩ ↔
      v.Within w ∧ Within ⟨vs⟩ ⟨ws⟩ := by
  constructor
  · intro h
    refine ⟨fun bit hBit => ?_, fun bits hBits => ?_⟩
    · rcases exists_satisfiedBy ⟨vs⟩ with ⟨bits, hBits⟩
      have hOuter := h (bit :: bits) (by
        rw [satisfiedBy_cons_cons, hBit, hBits,
          Bool.and_self])
      rw [satisfiedBy_cons_cons, Bool.and_eq_true] at hOuter
      exact hOuter.1
    · rcases v.exists_accepts with ⟨bit, hBit⟩
      have hOuter := h (bit :: bits) (by
        rw [satisfiedBy_cons_cons, hBit, hBits,
          Bool.and_self])
      rw [satisfiedBy_cons_cons, Bool.and_eq_true] at hOuter
      exact hOuter.2
  · intro hBoth assignment h
    rcases hBoth with ⟨hHead, hTail⟩
    cases assignment with
    | nil => cases h
    | cons bit bits =>
        rw [satisfiedBy_cons_cons, Bool.and_eq_true] at h ⊢
        exact ⟨hHead bit h.1, hTail bits h.2⟩

/- The outer row has a don't-care wherever the inner has. -/
theorem dontCares_le_of_within
    {inner outer : Row}
    (h : inner.Within outer) :
    inner.dontCares ≤ outer.dontCares := by
  rcases inner with ⟨vs⟩
  rcases outer with ⟨ws⟩
  induction vs generalizing ws with
  | nil => exact Nat.zero_le _
  | cons v vs ih =>
      cases ws with
      | nil =>
          have hLength : vs.length + 1 = 0 :=
            arity_eq_of_within h
          omega
      | cons w ws =>
          rcases within_cons_cons_iff.1 h with
            ⟨hHead, hTail⟩
          have hRest : dontCares ⟨vs⟩ ≤ dontCares ⟨ws⟩ :=
            ih ws hTail
          simp only [dontCares, List.countP_cons] at hRest ⊢
          rcases Value.within_iff.1 hHead with rfl | rfl
          · omega
          · have hCare : Value.dontCare.isLiteral = false :=
              rfl
            rw [hCare]
            split <;> simp <;> omega

/- Rows that stand for the same assignments are equal. -/
theorem within_antisymm
    {a b : Row}
    (hab : a.Within b)
    (hba : b.Within a) :
    a = b := by
  rcases a with ⟨as⟩
  rcases b with ⟨bs⟩
  induction as generalizing bs with
  | nil =>
      have hLength : 0 = bs.length := arity_eq_of_within hab
      rw [List.length_eq_zero_iff.1 hLength.symm]
  | cons a as ih =>
      cases bs with
      | nil =>
          have hLength : as.length + 1 = 0 :=
            arity_eq_of_within hab
          omega
      | cons b bs =>
          rcases within_cons_cons_iff.1 hab with
            ⟨hHead, hTail⟩
          rcases within_cons_cons_iff.1 hba with
            ⟨hHead', hTail'⟩
          have hValue : a = b := by
            rcases Value.within_iff.1 hHead with hb | hb
            · exact hb.symm
            · rcases Value.within_iff.1 hHead' with ha | ha
              · exact ha
              · rw [ha, hb]
          have hRest := Row.mk.inj (ih bs hTail hTail')
          rw [hValue, hRest]

end Row

end TwoLevel
