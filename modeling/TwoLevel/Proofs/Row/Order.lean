import TwoLevel.Row.Basic

/-
  This file says in plain words what the order of rows is.
  Two rows of one arity are compared at the first position
  where they differ, and the values there are in the order
  `0 < 1 < -`. The rows of a set are listed that way.

  Key definitions include:
    * `Value.rank`
    * `Row.Precedes`

  Main theorems:
    * `precedes_cons_cons_iff`
    * `compare_eq_lt_iff_precedes`
    * `pairwise_precedes`
-/

namespace TwoLevel

/- The place of a value in the order `0 < 1 < -`. -/
def Value.rank : Value → Nat
  | zero => 0
  | one => 1
  | dontCare => 2

theorem Value.compare_eq_lt_iff
    {v w : Value} :
    compare v w = .lt ↔ v.rank < w.rank := by
  cases v <;> cases w <;> decide

namespace Row

/-
  The rows agree up to some position, where the first row has
  the smaller value.
-/
def Precedes
    (a b : Row) : Prop :=
  ∃ front v w as bs,
    a.values = front ++ v :: as ∧
      b.values = front ++ w :: bs ∧
        v.rank < w.rank

section Order

variable {v w : Value}
variable {as bs : List Value}

theorem precedes_cons_cons_iff :
    Precedes ⟨v :: as⟩ ⟨w :: bs⟩ ↔
      v.rank < w.rank ∨ v = w ∧ Precedes ⟨as⟩ ⟨bs⟩ := by
  constructor
  · intro hGiven
    rcases hGiven with
      ⟨front, x, y, as', bs', hLeft, hRight, hLt⟩
    cases front with
    | nil =>
        rcases List.cons.inj hLeft with ⟨rfl, _⟩
        rcases List.cons.inj hRight with ⟨rfl, _⟩
        exact .inl hLt
    | cons z front =>
        rcases List.cons.inj hLeft with ⟨rfl, has⟩
        rcases List.cons.inj hRight with ⟨rfl, hbs⟩
        exact .inr
          ⟨rfl, front, x, y, as', bs', has, hbs, hLt⟩
  · intro hGiven
    rcases hGiven with hLt | ⟨rfl, hRest⟩
    · exact ⟨[], v, w, as, bs, rfl, rfl, hLt⟩
    · rcases hRest with
        ⟨front, x, y, as', bs', hLeft, hRight, hLt⟩
      refine ⟨v :: front, x, y, as', bs', ?_, ?_, hLt⟩
      · exact congrArg (v :: ·) hLeft
      · exact congrArg (v :: ·) hRight

/- The comparison of rows of one arity decides the order. -/
theorem compare_eq_lt_iff_precedes
    {a b : Row}
    (h : a.arity = b.arity) :
    compare a b = .lt ↔ a.Precedes b := by
  rcases a with ⟨as⟩
  rcases b with ⟨bs⟩
  induction as generalizing bs with
  | nil =>
      have hNil := List.eq_nil_of_length_eq_zero h.symm
      subst hNil
      refine iff_of_false nofun ?_
      intro hGiven
      rcases hGiven with ⟨front, v, w, as, bs, hLeft, _⟩
      cases front <;> cases hLeft
  | cons v as ih =>
      cases bs with
      | nil => cases h
      | cons w bs =>
          have hRest := ih bs (Nat.succ.inj h)
          rw [compare_def] at hRest
          rw [compare_def, precedes_cons_cons_iff, ← hRest,
            List.compare_cons_cons, Ordering.then_eq_lt,
            Value.compare_eq_lt_iff,
            Std.LawfulEqOrd.compare_eq_iff_eq]

end Order

/- Rows of one arity are listed in this order. -/
theorem pairwise_precedes
    {arity : Nat}
    {rows : RowSet}
    (hArity : ∀ row ∈ rows, row.arity = arity) :
    rows.toList.Pairwise Precedes := by
  apply rows.ascending.imp_of_mem
  intro a b ha hb hLt
  rw [OrderedSet.mem_toList_iff] at ha hb
  have hSame := (hArity a ha).trans (hArity b hb).symm
  exact (compare_eq_lt_iff_precedes hSame).1 hLt

end Row

end TwoLevel
