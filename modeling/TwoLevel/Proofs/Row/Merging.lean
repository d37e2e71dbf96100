import TwoLevel.Proofs.Row.Containment

/-
  This file says what merging two rows means. The merged row
  stands for the assignments of either row and for no other.
  Every row with a don't-care is such a merge, and a row that
  lies strictly inside another has a partner there to merge
  with.

  Main theorems:
    * `merge_self`
    * `merge_comm`
    * `satisfiedBy_of_merge`
    * `dontCares_of_merge`
    * `exists_merge_eq_some`
    * `exists_partner_of_within`
-/

namespace TwoLevel

namespace Value

theorem complements_comm
    (a b : Value) :
    a.complements b = b.complements a := by
  cases a <;> cases b <;> rfl

theorem accepts_or_of_complements
    {a b : Value}
    (h : a.complements b = true)
    (bit : Bool) :
    (a.accepts bit || b.accepts bit) = true := by
  cases a <;> cases b <;> cases bit <;>
    first
      | rfl
      | cases h

/- A demand can be met halfway by its opposite only. -/
theorem exists_complements_of_isLiteral
    {v : Value}
    (h : v.isLiteral = true) :
    ∃ w, v.complements w = true := by
  cases v with
  | zero => exact ⟨.one, rfl⟩
  | one => exact ⟨.zero, rfl⟩
  | dontCare => cases h

end Value

namespace Row

------------------------------------------------------------
-- Merging Lists of Values
------------------------------------------------------------

@[simp] theorem mergeValues_cons_self
    (v : Value)
    (as bs : List Value) :
    mergeValues (v :: as) (v :: bs) =
      (mergeValues as bs).map (v :: ·) := by
  simp [mergeValues]

theorem mergeValues_of_complements
    {v w : Value}
    (h : v.complements w = true)
    (vs : List Value) :
    mergeValues (v :: vs) (w :: vs) =
      some (.dontCare :: vs) := by
  have hNe : v ≠ w := ((Value.complements_iff v w).1 h).2.2
  simp [mergeValues, hNe, h]

/-
  Two lists merge after a value they share, or right at the
  first one.
-/
theorem mergeValues_cons_eq_some_iff
    {v : Value}
    {vs ws cs : List Value} :
    mergeValues (v :: vs) ws = some cs ↔
      (∃ ws' cs', ws = v :: ws' ∧ cs = v :: cs' ∧
        mergeValues vs ws' = some cs') ∨
      ∃ w, v.complements w = true ∧ ws = w :: vs ∧
        cs = .dontCare :: vs := by
  constructor
  · intro h
    cases ws with
    | nil => cases h
    | cons w ws =>
        rw [mergeValues] at h
        split at h
        · rename_i hvw
          subst hvw
          rcases Option.map_eq_some_iff.1 h with
            ⟨cs', hcs', rfl⟩
          exact Or.inl ⟨ws, cs', rfl, rfl, hcs'⟩
        · split at h
          · rename_i hMerge
            cases h
            rw [Bool.and_eq_true, beq_iff_eq] at hMerge
            rcases hMerge with ⟨hCompl, rfl⟩
            exact Or.inr ⟨w, hCompl, rfl, rfl⟩
          · cases h
  · intro hGiven
    rcases hGiven with
      ⟨ws', cs', rfl, rfl, hMerge⟩ | ⟨w, hCompl, rfl, rfl⟩
    · rw [mergeValues_cons_self, hMerge]
      rfl
    · exact mergeValues_of_complements hCompl vs

private theorem mergeValues_self
    (vs : List Value) :
    mergeValues vs vs = none := by
  induction vs with
  | nil => rfl
  | cons v vs ih => rw [mergeValues_cons_self, ih]; rfl

private theorem mergeValues_comm
    (as bs : List Value) :
    mergeValues as bs = mergeValues bs as := by
  fun_induction mergeValues as bs with
  | case1 a as bs ih => rw [mergeValues_cons_self, ih]
  | case2 a as b bs hNe h =>
      rw [Bool.and_eq_true, beq_iff_eq] at h
      rcases h with ⟨hCompl, rfl⟩
      rw [Value.complements_comm] at hCompl
      exact (mergeValues_of_complements hCompl as).symm
  | case3 a as b bs hNe h =>
      have hNe' : ¬ b = a := fun hba => hNe hba.symm
      rw [Value.complements_comm, BEq.comm] at h
      simp [mergeValues, hNe', h]
  | case4 as bs h =>
      cases as with
      | nil => cases bs <;> rfl
      | cons a as =>
          cases bs with
          | nil => rfl
          | cons b bs => exact absurd rfl (h a as b bs rfl)

private theorem satisfiedBy_of_mergeValues
    {as bs cs : List Value}
    (h : mergeValues as bs = some cs)
    (assignment : List Bool) :
    satisfiedBy ⟨cs⟩ assignment =
      (satisfiedBy ⟨as⟩ assignment ||
        satisfiedBy ⟨bs⟩ assignment) := by
  fun_induction mergeValues as bs
      generalizing cs assignment with
  | case1 a as bs ih =>
      rcases Option.map_eq_some_iff.1 h with ⟨ds, hds, rfl⟩
      cases assignment with
      | nil => rfl
      | cons bit bits =>
          simp only [satisfiedBy_cons_cons, ih hds]
          rw [Bool.and_or_distrib_left]
  | case2 a as b bs hNe hMerge =>
      cases h
      rw [Bool.and_eq_true, beq_iff_eq] at hMerge
      rcases hMerge with ⟨hCompl, rfl⟩
      cases assignment with
      | nil => rfl
      | cons bit bits =>
          simp only [satisfiedBy_cons_cons]
          rw [← Bool.and_or_distrib_right,
            Value.accepts_or_of_complements hCompl]
          rfl
  | case3 => cases h
  | case4 => cases h

/- A don't-care is what a merge leaves behind. -/
private theorem exists_mergeValues_eq_some
    {cs : List Value}
    (h : 0 < cs.countP (fun v => !v.isLiteral)) :
    ∃ as bs, mergeValues as bs = some cs := by
  induction cs with
  | nil => exact absurd h (by simp)
  | cons c cs ih =>
      by_cases hc : c.isLiteral = true
      · rw [List.countP_cons_of_neg (by simp [hc])] at h
        rcases ih h with ⟨as, bs, hMerge⟩
        refine ⟨c :: as, c :: bs, ?_⟩
        rw [mergeValues_cons_self, hMerge]
        rfl
      · have hCare := Value.eq_dontCare_of_not_isLiteral hc
        refine ⟨.zero :: cs, .one :: cs, ?_⟩
        rw [hCare, mergeValues_of_complements rfl]

/-
  By induction on the position up to which the two rows
  agree: there the outer row has a don't-care, and the inner
  one merges with its opposite.
-/
private theorem exists_partner_of_within_values
    {vs ws : List Value}
    (hWithin : Within ⟨vs⟩ ⟨ws⟩)
    (hNe : vs ≠ ws) :
    ∃ us cs, mergeValues vs us = some cs ∧
      Within ⟨cs⟩ ⟨ws⟩ := by
  induction vs generalizing ws with
  | nil =>
      have hLength : 0 = ws.length :=
        arity_eq_of_within hWithin
      have hNil := List.length_eq_zero_iff.1 hLength.symm
      exact absurd hNil.symm hNe
  | cons v vs ih =>
      cases ws with
      | nil =>
          have hLength : vs.length + 1 = 0 :=
            arity_eq_of_within hWithin
          omega
      | cons w ws =>
          rcases within_cons_cons_iff.1 hWithin with
            ⟨hHead, hTail⟩
          by_cases hvw : v = w
          · subst hvw
            have hTailNe : vs ≠ ws := by
              intro hEq
              exact hNe (by rw [hEq])
            rcases ih hTail hTailNe with
              ⟨us, cs, hMerge, hcs⟩
            refine ⟨v :: us, v :: cs, ?_, ?_⟩
            · rw [mergeValues_cons_self, hMerge]
              rfl
            · exact within_cons_cons_iff.2 ⟨hHead, hcs⟩
          · have hw : w = .dontCare := by
              rcases Value.within_iff.1 hHead with hw | hw
              · exact absurd hw.symm hvw
              · exact hw
            subst hw
            have hv : v.isLiteral = true := by
              cases v with
              | zero => rfl
              | one => rfl
              | dontCare => exact absurd rfl hvw
            rcases
                Value.exists_complements_of_isLiteral hv with
              ⟨u, hu⟩
            refine ⟨u :: vs, .dontCare :: vs,
              mergeValues_of_complements hu vs, ?_⟩
            exact within_cons_cons_iff.2
              ⟨fun _ h => h, hTail⟩

------------------------------------------------------------
-- Merging Rows
------------------------------------------------------------

theorem merge_self
    (row : Row) :
    row.merge row = none := by
  rw [merge, mergeValues_self]
  rfl

theorem merge_comm
    (a b : Row) :
    a.merge b = b.merge a := by
  rw [merge, mergeValues_comm, merge]

theorem merge_eq_some_iff
    {a b c : Row} :
    a.merge b = some c ↔
      mergeValues a.values b.values = some c.values := by
  rw [merge, Option.map_eq_some_iff]
  constructor
  · intro hGiven
    rcases hGiven with ⟨cs, hcs, rfl⟩
    exact hcs
  · intro h
    exact ⟨c.values, h, rfl⟩

/- The merged row stands for what either row stands for. -/
theorem satisfiedBy_of_merge
    {a b c : Row}
    (h : a.merge b = some c)
    (assignment : List Bool) :
    c.satisfiedBy assignment =
      (a.satisfiedBy assignment ||
        b.satisfiedBy assignment) :=
  satisfiedBy_of_mergeValues (merge_eq_some_iff.1 h)
    assignment

theorem left_within_of_merge
    {a b c : Row}
    (h : a.merge b = some c) :
    a.Within c := by
  intro assignment ha
  rw [satisfiedBy_of_merge h, ha, Bool.true_or]

theorem right_within_of_merge
    {a b c : Row}
    (h : a.merge b = some c) :
    b.Within c := by
  rw [merge_comm] at h
  exact left_within_of_merge h

/- Merging adds exactly one don't-care. -/
theorem dontCares_of_merge
    {a b c : Row}
    (h : a.merge b = some c) :
    c.dontCares = a.dontCares + 1 ∧
      c.dontCares = b.dontCares + 1 := by
  have hArity := arity_of_merge h
  have hLiterals := literalCount_of_merge h
  have ha := a.literalCount_add_dontCares
  have hb := b.literalCount_add_dontCares
  have hc := c.literalCount_add_dontCares
  omega

theorem ne_of_merge
    {a b c : Row}
    (h : a.merge b = some c) :
    a ≠ c := by
  intro hEq
  have hCount := (dontCares_of_merge h).1
  rw [hEq] at hCount
  omega

/- A row with a don't-care is the merge of two rows. -/
theorem exists_merge_eq_some
    {c : Row}
    (h : 0 < c.dontCares) :
    ∃ a b : Row, a.merge b = some c := by
  rcases exists_mergeValues_eq_some h with ⟨as, bs, hMerge⟩
  exact ⟨⟨as⟩, ⟨bs⟩, merge_eq_some_iff.2 hMerge⟩

/-
  A row strictly inside another merges with some row into one
  that is still inside.
-/
theorem exists_partner_of_within
    {inner outer : Row}
    (hWithin : inner.Within outer)
    (hNe : inner ≠ outer) :
    ∃ other merged, inner.merge other = some merged ∧
      merged.Within outer := by
  have hValues : inner.values ≠ outer.values := by
    intro hEq
    exact hNe (Row.ext hEq)
  rcases exists_partner_of_within_values hWithin hValues with
    ⟨us, cs, hMerge, hcs⟩
  exact ⟨⟨us⟩, ⟨cs⟩, merge_eq_some_iff.2 hMerge, hcs⟩

end Row

end TwoLevel
