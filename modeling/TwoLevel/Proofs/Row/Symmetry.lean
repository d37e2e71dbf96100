import Mathlib.Data.Fin.Tuple.Basic
import Mathlib.Logic.Equiv.Basic
import TwoLevel.Proofs.Row.Partition

/-
  This file defines the symmetries of the assignments to a
  number of variables: the variables trade places, and some of
  them are negated. A symmetry moves rows, and moving a row
  moves the assignments that satisfy it.

  Merging is a matter of these assignments alone, so moving
  two rows and merging them is merging them and moving the
  result.

  Key definitions include:
    * `Row.demand`
    * `Symmetry`
    * `Symmetry.onRow`
    * `Symmetry.pullBack`
    * `Symmetry.inverse`

  Main theorems:
    * `satisfiedBy_iff_forall_demand`
    * `satisfiedBy_onRow`
    * `inverse_onRow`
    * `merge_onRow`
-/

namespace TwoLevel

------------------------------------------------------------
-- Negated Demands
------------------------------------------------------------

namespace Value

/- The opposite demand, if the variable is negated. -/
def negateIf : Bool → Value → Value
  | true, zero => one
  | true, one => zero
  | _, v => v

@[simp] theorem negateIf_negateIf
    (negated : Bool)
    (v : Value) :
    negateIf negated (negateIf negated v) = v := by
  cases negated <;> cases v <;> rfl

theorem accepts_negateIf
    (negated : Bool)
    (v : Value)
    (bit : Bool) :
    (negateIf negated v).accepts bit =
      v.accepts (bit ^^ negated) := by
  cases negated <;> cases v <;> cases bit <;> rfl

end Value

------------------------------------------------------------
-- Demands by Position
------------------------------------------------------------

namespace Row

/- The value at a position, past the end of no demand. -/
def demand
    (row : Row)
    (position : Nat) : Value :=
  row.values.getD position .dontCare

/- Every variable is given a truth value that it admits. -/
theorem satisfiedBy_iff_forall_demand
    {arity : Nat}
    {row : Row}
    {assignment : List Bool}
    (hRow : row.arity = arity)
    (hLength : assignment.length = arity) :
    row.satisfiedBy assignment = true ↔
      ∀ i : Fin arity,
        (row.demand i).accepts (assignment.getD i false) =
          true := by
  rcases row with ⟨values⟩
  induction values generalizing arity assignment with
  | nil =>
      subst hRow
      have hNil := List.length_eq_zero_iff.1 hLength
      subst hNil
      exact iff_of_true rfl (fun i => i.elim0)
  | cons v vs ih =>
      subst hRow
      rcases List.exists_cons_of_length_eq_add_one hLength
        with ⟨bit, bits, rfl⟩
      have hBits : bits.length = vs.length :=
        Nat.succ.inj hLength
      have hRest := ih hBits rfl
      change _ ↔ ∀ i : Fin (vs.length + 1), _
      rw [satisfiedBy_cons_cons, Bool.and_eq_true, hRest,
        Fin.forall_fin_succ]
      rfl

/- Rows of one arity are equal if they demand the same. -/
theorem ext_demand
    {arity : Nat}
    {a b : Row}
    (ha : a.arity = arity)
    (hb : b.arity = arity)
    (h : ∀ i : Fin arity, a.demand i = b.demand i) :
    a = b := by
  apply Row.ext
  apply List.ext_getElem (ha.trans hb.symm)
  intro i hiA hiB
  have hLt : i < arity := Nat.lt_of_lt_of_eq hiA ha
  have hDemand := h ⟨i, hLt⟩
  simpa only [demand, List.getD_eq_getElem?_getD,
    List.getElem?_eq_getElem hiA,
    List.getElem?_eq_getElem hiB, Option.getD_some]
    using hDemand

end Row

------------------------------------------------------------
-- Symmetries
------------------------------------------------------------

/-
  For each position the variable that moves there, and whether
  it is negated on the way.
-/
structure Symmetry
    (arity : Nat) where
  source : Equiv.Perm (Fin arity)
  negated : Fin arity → Bool

namespace Symmetry

section Symmetries

variable {arity : Nat}
variable (symmetry : Symmetry arity)

/- Move the demands of a row. -/
def onRow
    (row : Row) : Row where
  values :=
    List.ofFn (fun i =>
      (row.demand (symmetry.source i)).negateIf
        (symmetry.negated i))

/- Move an assignment back to where the variables were. -/
def pullBack
    (assignment : List Bool) : List Bool :=
  List.ofFn (fun i =>
    let target := symmetry.source.symm i
    assignment.getD target false ^^ symmetry.negated target)

/- Move every variable back. -/
def inverse : Symmetry arity where
  source := symmetry.source.symm
  negated := fun i =>
    symmetry.negated (symmetry.source.symm i)

@[simp] theorem arity_onRow
    (row : Row) :
    (symmetry.onRow row).arity = arity :=
  List.length_ofFn

@[simp] theorem demand_onRow
    (row : Row)
    (i : Fin arity) :
    (symmetry.onRow row).demand i =
      (row.demand (symmetry.source i)).negateIf
        (symmetry.negated i) := by
  simp [Row.demand, onRow]

@[simp] theorem length_pullBack
    (assignment : List Bool) :
    (symmetry.pullBack assignment).length = arity :=
  List.length_ofFn

theorem getD_pullBack
    (assignment : List Bool)
    (i : Fin arity) :
    (symmetry.pullBack assignment).getD
        (symmetry.source i) false =
      (assignment.getD i false ^^ symmetry.negated i) := by
  simp [pullBack]

/-
  A moved row is satisfied by the assignments that satisfy the
  row when they are moved back.
-/
theorem satisfiedBy_onRow
    {row : Row}
    (hRow : row.arity = arity)
    (assignment : List Bool) :
    (symmetry.onRow row).satisfiedBy assignment = true ↔
      assignment.length = arity ∧
        row.satisfiedBy (symmetry.pullBack assignment) =
          true := by
  have hMoved := symmetry.arity_onRow row
  by_cases hLength : assignment.length = arity
  · rw [and_iff_right hLength,
      Row.satisfiedBy_iff_forall_demand hMoved hLength,
      Row.satisfiedBy_iff_forall_demand hRow
        (symmetry.length_pullBack assignment)]
    refine Iff.trans ?_ symmetry.source.forall_congr_right
    simp only [demand_onRow, Value.accepts_negateIf,
      getD_pullBack]
  · refine iff_of_false ?_ (fun hBoth => hLength hBoth.1)
    intro hSat
    exact hLength
      ((Row.length_eq_of_satisfiedBy hSat).trans hMoved)

/- Moving a row there and back changes nothing. -/
theorem inverse_onRow
    {row : Row}
    (hRow : row.arity = arity) :
    symmetry.inverse.onRow (symmetry.onRow row) = row := by
  apply Row.ext_demand (arity_onRow _ _) hRow
  intro i
  simp [inverse]

------------------------------------------------------------
-- Moving and Merging
------------------------------------------------------------

/- What is parted stays parted when it is moved. -/
theorem partedInto_onRow
    {whole left right : Row}
    (hLeft : left.arity = arity)
    (hRight : right.arity = arity)
    (h : whole.PartedInto left right) :
    (symmetry.onRow whole).PartedInto
      (symmetry.onRow left) (symmetry.onRow right) := by
  have hWhole : whole.arity = arity :=
    (Row.arity_eq_of_within h.left_within).symm.trans hLeft
  constructor
  · intro assignment hBoth
    rw [satisfiedBy_onRow symmetry hLeft,
      satisfiedBy_onRow symmetry hRight] at hBoth
    exact h.disjoint (symmetry.pullBack assignment)
      ⟨hBoth.1.2, hBoth.2.2⟩
  · intro assignment
    rw [satisfiedBy_onRow symmetry hWhole,
      satisfiedBy_onRow symmetry hLeft,
      satisfiedBy_onRow symmetry hRight, h.union, and_or_left]

theorem merge_onRow_of_merge
    {a b c : Row}
    (ha : a.arity = arity)
    (hb : b.arity = arity)
    (h : a.merge b = some c) :
    (symmetry.onRow a).merge (symmetry.onRow b) =
      some (symmetry.onRow c) := by
  have hParted := Row.partedInto_of_merge h
  exact Row.merge_of_partedInto
    (symmetry.partedInto_onRow ha hb hParted)

/-
  Merging commutes with moving. Rows that merge once they are
  moved merged before, since they can be moved back.
-/
theorem merge_onRow
    {a b : Row}
    (ha : a.arity = arity)
    (hb : b.arity = arity) :
    (symmetry.onRow a).merge (symmetry.onRow b) =
      (a.merge b).map symmetry.onRow := by
  cases hMerge : a.merge b with
  | some c => exact symmetry.merge_onRow_of_merge ha hb hMerge
  | none =>
      rw [Option.map_none, Option.eq_none_iff_forall_ne_some]
      -- Moved back, the rows would merge after all.
      intro moved hMoved
      have hBack :=
        symmetry.inverse.merge_onRow_of_merge
          (symmetry.arity_onRow a) (symmetry.arity_onRow b)
          hMoved
      rw [symmetry.inverse_onRow ha,
        symmetry.inverse_onRow hb, hMerge] at hBack
      cases hBack

end Symmetries

end Symmetry

end TwoLevel
