import TwoLevel.Proofs.Cover.Progress

/-
  This file states the rule of the greedy set cover, over
  plain finite sets: pick the implicant that satisfies the
  most of the assignments still left over, the least in row
  order of several, until nothing is left.

  Key definitions include:
    * `IsGreedyChoice`
    * `GreedySelection`

  Main theorems:
    * `GreedySelection.isGreedyChoice_of_getElem?`
    * `GreedySelection.remainder_take_eq_empty_iff`
    * `GreedySelection.advances`
-/

namespace TwoLevel

/-
  No implicant has more of the assignments, and those that
  have as many are not smaller.
-/
structure IsGreedyChoice
    (implicants : List Row)
    (uncovered : Finset (List Bool))
    (row : Row) : Prop where
  mem_implicants : row ∈ implicants
  one_le_card : 1 ≤ (row.among uncovered).card
  card_le :
    ∀ other ∈ implicants,
      (other.among uncovered).card ≤
        (row.among uncovered).card
  least :
    ∀ other ∈ implicants,
      (other.among uncovered).card =
          (row.among uncovered).card →
        (compare row other).isLE = true

/- The rule applied until no assignment is left over. -/
inductive GreedySelection
    (implicants : List Row) :
    Finset (List Bool) → List Row → Prop where
  | done : GreedySelection implicants ∅ []
  | pick
      {uncovered : Finset (List Bool)}
      {row : Row}
      {rows : List Row}
      (hChoice : IsGreedyChoice implicants uncovered row)
      (hRest :
        GreedySelection implicants
          (remainder uncovered [row]) rows) :
      GreedySelection implicants uncovered (row :: rows)

theorem IsGreedyChoice.exists_mem
    {implicants : List Row}
    {uncovered : Finset (List Bool)}
    {row : Row}
    (h : IsGreedyChoice implicants uncovered row) :
    ∃ assignment ∈ uncovered,
      row.satisfiedBy assignment = true := by
  rcases Finset.card_pos.1 h.one_le_card with
    ⟨assignment, hMem⟩
  exact ⟨assignment, Row.mem_among_iff.1 hMem⟩

namespace GreedySelection

variable {implicants rows : List Row}
variable {uncovered : Finset (List Bool)}

theorem advances
    (h : GreedySelection implicants uncovered rows) :
    Advances uncovered rows := by
  induction h with
  | done => exact .done ∅
  | pick hChoice hRest ih => exact .step hChoice.exists_mem ih

/- Each pick follows the rule where its turn comes. -/
theorem isGreedyChoice_of_getElem?
    (h : GreedySelection implicants uncovered rows)
    {i : Nat}
    {row : Row}
    (hRow : rows[i]? = some row) :
    IsGreedyChoice implicants
      (remainder uncovered (rows.take i)) row := by
  induction h generalizing i with
  | done => cases hRow
  | pick hChoice hRest ih =>
      cases i with
      | zero =>
          rw [List.getElem?_cons_zero,
            Option.some.injEq] at hRow
          subst hRow
          rw [List.take_zero, remainder_nil]
          exact hChoice
      | succ i =>
          rw [List.getElem?_cons_succ] at hRow
          rw [List.take_succ_cons, remainder_cons]
          exact ih hRow

/- Nothing is left over after the last pick only. -/
theorem remainder_take_eq_empty_iff
    (h : GreedySelection implicants uncovered rows)
    {i : Nat}
    (hi : i ≤ rows.length) :
    remainder uncovered (rows.take i) = ∅ ↔
      i = rows.length := by
  induction h generalizing i with
  | done =>
      rw [List.take_nil, remainder_nil]
      exact ⟨fun _ => Nat.le_zero.1 hi, fun _ => rfl⟩
  | @pick uncovered row rows hChoice hRest ih =>
      cases i with
      | zero =>
          rw [List.take_zero, remainder_nil,
            List.length_cons]
          constructor
          · intro hEmpty
            rcases hChoice.exists_mem with
              ⟨assignment, hMem, _⟩
            rw [hEmpty] at hMem
            exact absurd hMem (Finset.notMem_empty _)
          · intro hZero
            exact absurd hZero (Nat.succ_ne_zero _).symm
      | succ i =>
          rw [List.length_cons] at hi
          rw [List.take_succ_cons, remainder_cons,
            ih (Nat.le_of_succ_le_succ hi),
            List.length_cons, Nat.succ_inj]

end GreedySelection

end TwoLevel
