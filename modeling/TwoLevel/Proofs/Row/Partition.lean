import TwoLevel.Proofs.Row.Merging

/-
  This file characterizes merging by assignments alone. Two
  rows merge exactly when no assignment satisfies both and the
  assignments of either are the assignments of one row, and
  that row is what they merge into.

  A row that is parted into two others is compared with them
  position by position. As long as the parts agree, so does
  the whole, and the rest is parted in turn. Where the parts
  differ they demand opposite values, and from there on all
  three are the same.

  Key definitions include:
    * `Row.PartedInto`

  Main theorems:
    * `partedInto_of_merge`
    * `complements_of_partedInto_cons`
    * `merge_of_partedInto`
    * `merge_eq_some_iff_partedInto`
-/

namespace TwoLevel

namespace Value

theorem accepts_eq_false_of_complements
    {a b : Value}
    {bit : Bool}
    (h : a.complements b = true)
    (hBit : a.accepts bit = true) :
    b.accepts bit = false := by
  revert h hBit
  cases a <;> cases b <;> cases bit <;> decide

/- A demand is refused by some truth value. -/
theorem exists_accepts_eq_false_of_isLiteral
    {v : Value}
    (h : v.isLiteral = true) :
    ∃ bit, v.accepts bit = false := by
  cases v with
  | zero => exact ⟨true, rfl⟩
  | one => exact ⟨false, rfl⟩
  | dontCare => cases h

/- Values that differ are opposite unless one demands nothing. -/
theorem complements_or_dontCare_of_ne
    {a b : Value}
    (h : a ≠ b) :
    a.complements b = true ∨
      (a = .dontCare ∧ b.isLiteral = true) ∨
      (b = .dontCare ∧ a.isLiteral = true) := by
  revert h
  cases a <;> cases b <;> decide

end Value

namespace Row

/-
  The whole stands for what either part stands for, and no
  assignment satisfies both parts.
-/
structure PartedInto
    (whole left right : Row) : Prop where
  disjoint :
    ∀ assignment,
      ¬ (left.satisfiedBy assignment = true ∧
        right.satisfiedBy assignment = true)
  union :
    ∀ assignment,
      whole.satisfiedBy assignment = true ↔
        left.satisfiedBy assignment = true ∨
          right.satisfiedBy assignment = true

------------------------------------------------------------
-- Parts of a Row
------------------------------------------------------------

section Parts

variable {whole left right : Row}

theorem PartedInto.symm
    (h : whole.PartedInto left right) :
    whole.PartedInto right left where
  disjoint := fun assignment hBoth =>
    h.disjoint assignment ⟨hBoth.2, hBoth.1⟩
  union := fun assignment =>
    (h.union assignment).trans Or.comm

theorem PartedInto.left_within
    (h : whole.PartedInto left right) :
    left.Within whole :=
  fun assignment hLeft => (h.union assignment).2 (Or.inl hLeft)

theorem PartedInto.right_within
    (h : whole.PartedInto left right) :
    right.Within whole :=
  h.symm.left_within

/- A row is more than one of its parts. -/
theorem not_partedInto_self
    (left right : Row) :
    ¬ left.PartedInto left right := by
  intro h
  rcases right.exists_satisfiedBy with ⟨assignment, hRight⟩
  exact h.disjoint assignment
    ⟨h.right_within assignment hRight, hRight⟩

end Parts

------------------------------------------------------------
-- Parts Position by Position
------------------------------------------------------------

section Positions

variable {u v w : Value}
variable {us vs ws : List Value}

/- A bit that both parts admit leaves the rest parted. -/
theorem PartedInto.tail
    {bit : Bool}
    (h : PartedInto ⟨u :: us⟩ ⟨v :: vs⟩ ⟨w :: ws⟩)
    (hv : v.accepts bit = true)
    (hw : w.accepts bit = true) :
    PartedInto ⟨us⟩ ⟨vs⟩ ⟨ws⟩ := by
  have hu : u.accepts bit = true :=
    (within_cons_cons_iff.1 h.left_within).1 bit hv
  constructor
  · intro assignment
    have hDisjoint := h.disjoint (bit :: assignment)
    simpa only [satisfiedBy_cons_cons, hv, hw,
      Bool.true_and] using hDisjoint
  · intro assignment
    have hUnion := h.union (bit :: assignment)
    simpa only [satisfiedBy_cons_cons, hu, hv, hw,
      Bool.true_and] using hUnion

/- With a bit that one part refuses, the other is the whole. -/
theorem PartedInto.tail_eq
    {bit : Bool}
    (h : PartedInto ⟨u :: us⟩ ⟨v :: vs⟩ ⟨w :: ws⟩)
    (hv : v.accepts bit = true)
    (hw : w.accepts bit = false) :
    us = vs := by
  have hu : u.accepts bit = true :=
    (within_cons_cons_iff.1 h.left_within).1 bit hv
  have hSame :
      ∀ assignment,
        satisfiedBy ⟨us⟩ assignment = true ↔
          satisfiedBy ⟨vs⟩ assignment = true := by
    intro assignment
    have hUnion := h.union (bit :: assignment)
    simpa only [satisfiedBy_cons_cons, hu, hv, hw,
      Bool.true_and, Bool.false_and, Bool.false_eq_true,
      or_false] using hUnion
  have hRows : Row.mk us = Row.mk vs :=
    within_antisymm
      (fun assignment => (hSame assignment).1)
      (fun assignment => (hSame assignment).2)
  exact Row.mk.inj hRows

/- The whole agrees with its parts where these agree. -/
theorem PartedInto.head_eq
    (h : PartedInto ⟨u :: us⟩ ⟨v :: vs⟩ ⟨v :: ws⟩) :
    u = v := by
  have hWithin : u.Within v := by
    intro bit hu
    rcases exists_satisfiedBy ⟨us⟩ with ⟨bits, hus⟩
    have hWhole :
        satisfiedBy ⟨u :: us⟩ (bit :: bits) = true := by
      rw [satisfiedBy_cons_cons, hu, hus, Bool.and_self]
    rcases (h.union (bit :: bits)).1 hWhole with
      hPart | hPart
    · rw [satisfiedBy_cons_cons, Bool.and_eq_true] at hPart
      exact hPart.1
    · rw [satisfiedBy_cons_cons, Bool.and_eq_true] at hPart
      exact hPart.1
  have hWithin' := (within_cons_cons_iff.1 h.left_within).1
  rcases Value.within_iff.1 hWithin' with hu | hu
  · exact hu
  · rcases Value.within_iff.1 hWithin with hv | hv
    · exact hv.symm
    · rw [hu, hv]

/-
  Were one of two differing demands no demand at all, its part
  would be the whole for one bit, and parted for the other.
-/
private theorem not_partedInto_dontCare_left
    (hw : w.isLiteral = true) :
    ¬ PartedInto ⟨u :: us⟩ ⟨.dontCare :: vs⟩ ⟨w :: ws⟩ := by
  intro h
  rcases w.exists_accepts with ⟨accepted, hAccepted⟩
  rcases Value.exists_accepts_eq_false_of_isLiteral hw with
    ⟨refused, hRefused⟩
  have hRest := h.tail rfl hAccepted
  have hEq := h.tail_eq rfl hRefused
  rw [hEq] at hRest
  exact not_partedInto_self _ _ hRest

/- Parts that differ demand opposite values. -/
theorem complements_of_partedInto_cons
    (h : PartedInto ⟨u :: us⟩ ⟨v :: vs⟩ ⟨w :: ws⟩)
    (hNe : v ≠ w) :
    v.complements w = true := by
  rcases Value.complements_or_dontCare_of_ne hNe with
    hCompl | ⟨rfl, hw⟩ | ⟨rfl, hv⟩
  · exact hCompl
  · exact absurd h (not_partedInto_dontCare_left hw)
  · exact absurd h.symm (not_partedInto_dontCare_left hv)

/- Beyond opposite demands the whole and its parts agree. -/
theorem PartedInto.eq_of_complements
    (h : PartedInto ⟨u :: us⟩ ⟨v :: vs⟩ ⟨w :: ws⟩)
    (hCompl : v.complements w = true) :
    u = .dontCare ∧ us = vs ∧ us = ws := by
  have hNe := ((Value.complements_iff v w).1 hCompl).2.2
  have hCompl' : w.complements v = true := by
    rw [Value.complements_comm]
    exact hCompl
  refine ⟨?_, ?_, ?_⟩
  · have hv := (within_cons_cons_iff.1 h.left_within).1
    have hw := (within_cons_cons_iff.1 h.right_within).1
    rcases Value.within_iff.1 hv with huv | hu
    · rcases Value.within_iff.1 hw with huw | hu
      · exact absurd (huv.symm.trans huw) hNe
      · exact hu
    · exact hu
  · rcases v.exists_accepts with ⟨bit, hv⟩
    exact h.tail_eq hv
      (Value.accepts_eq_false_of_complements hCompl hv)
  · rcases w.exists_accepts with ⟨bit, hw⟩
    exact h.symm.tail_eq hw
      (Value.accepts_eq_false_of_complements hCompl' hw)

end Positions

------------------------------------------------------------
-- Merging
------------------------------------------------------------

private theorem not_both_of_mergeValues
    {as bs cs : List Value}
    (h : mergeValues as bs = some cs)
    (assignment : List Bool) :
    ¬ (satisfiedBy ⟨as⟩ assignment = true ∧
      satisfiedBy ⟨bs⟩ assignment = true) := by
  induction as generalizing bs cs assignment with
  | nil => cases bs <;> cases h
  | cons v vs ih =>
      intro hBoth
      rcases hBoth with ⟨hLeft, hRight⟩
      cases assignment with
      | nil => cases hLeft
      | cons bit bits =>
          rcases mergeValues_cons_eq_some_iff.1 h with
            ⟨ws, cs', rfl, rfl, hRest⟩ | ⟨w, hvw, rfl, rfl⟩
          · rw [satisfiedBy_cons_cons, Bool.and_eq_true]
              at hLeft hRight
            exact ih hRest bits ⟨hLeft.2, hRight.2⟩
          · rw [satisfiedBy_cons_cons, Bool.and_eq_true]
              at hLeft hRight
            have hFalse :=
              Value.accepts_eq_false_of_complements hvw
                hLeft.1
            rw [hRight.1] at hFalse
            cases hFalse

/- A merged row is parted into the rows it was made of. -/
theorem partedInto_of_merge
    {a b c : Row}
    (h : a.merge b = some c) :
    c.PartedInto a b where
  disjoint := not_both_of_mergeValues (merge_eq_some_iff.1 h)
  union := by
    intro assignment
    rw [satisfiedBy_of_merge h, Bool.or_eq_true]

/-
  By induction on the positions up to the first one where the
  parts differ.
-/
private theorem mergeValues_of_partedInto
    {as bs cs : List Value}
    (h : PartedInto ⟨cs⟩ ⟨as⟩ ⟨bs⟩) :
    mergeValues as bs = some cs := by
  have hLengthA : as.length = cs.length :=
    arity_eq_of_within h.left_within
  have hLengthB : bs.length = cs.length :=
    arity_eq_of_within h.right_within
  induction cs generalizing as bs with
  | nil =>
      rw [List.length_eq_zero_iff.1 hLengthA,
        List.length_eq_zero_iff.1 hLengthB] at h
      exact absurd h (not_partedInto_self _ _)
  | cons u us ih =>
      rcases List.exists_cons_of_length_eq_add_one hLengthA
        with ⟨v, vs, rfl⟩
      rcases List.exists_cons_of_length_eq_add_one hLengthB
        with ⟨w, ws, rfl⟩
      by_cases hvw : v = w
      · -- Any bit that the shared demand admits leads to the
        -- rest of the three rows.
        subst hvw
        rcases v.exists_accepts with ⟨bit, hv⟩
        have hRest := ih (h.tail hv hv)
          (arity_eq_of_within (h.tail hv hv).left_within)
          (arity_eq_of_within (h.tail hv hv).right_within)
        rw [mergeValues_cons_self, hRest, h.head_eq]
        rfl
      · have hCompl := complements_of_partedInto_cons h hvw
        rcases h.eq_of_complements hCompl with
          ⟨rfl, rfl, rfl⟩
        exact mergeValues_of_complements hCompl us

/- A row merges back from the parts it is parted into. -/
theorem merge_of_partedInto
    {a b c : Row}
    (h : c.PartedInto a b) :
    a.merge b = some c :=
  merge_eq_some_iff.2 (mergeValues_of_partedInto h)

/-
  Merging is the inverse of parting: two rows merge into the
  row that is parted into them, if there is one.
-/
theorem merge_eq_some_iff_partedInto
    {a b c : Row} :
    a.merge b = some c ↔ c.PartedInto a b := by
  constructor
  · exact partedInto_of_merge
  · exact merge_of_partedInto

end Row

end TwoLevel
