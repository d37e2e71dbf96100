import Mathlib.Algebra.BigOperators.Field
import Mathlib.Algebra.Order.BigOperators.Group.Finset
import Mathlib.Algebra.Order.Field.Rat
import Mathlib.NumberTheory.Harmonic.Defs
import Mathlib.Order.Lattice.Nat
import Mathlib.Tactic.Linarith
import Mathlib.Tactic.Positivity
import Mathlib.Tactic.Ring
import TwoLevel.Proofs.Cover.Competitors

/-
  This file bounds the number of greedy rows by the size of
  any competing cover. The competitor is given a potential:
  the sum of the harmonic numbers of the shares that its rows
  have of what is left over. A greedy row has the largest
  share, and the competitor covers that share too, so picking
  it costs the competitor at least one.

  Key definitions include:
    * `potential`
    * `largestShare`

  Main theorems:
    * `div_le_harmonic_sub_harmonic`
    * `potential_remainder_add_one_le`
    * `length_le_potential`
    * `length_greedy_le_harmonic_mul`
-/

namespace TwoLevel

------------------------------------------------------------
-- Harmonic Numbers
------------------------------------------------------------

/- Each step up to a bound adds at least its reciprocal. -/
theorem div_le_harmonic_sub_harmonic
    {few many bound : Nat}
    (hFew : few ≤ many)
    (hMany : many ≤ bound) :
    ((many : ℚ) - few) / bound ≤
      harmonic many - harmonic few := by
  induction many, hFew using Nat.le_induction with
  | base => simp
  | succ many _ ih =>
      have hRest := ih (Nat.le_of_succ_le hMany)
      have hStep :
          (bound : ℚ)⁻¹ ≤ ((many + 1 : Nat) : ℚ)⁻¹ := by
        gcongr
      have hSplit :
          (((many + 1 : Nat) : ℚ) - few) / bound =
            ((many : ℚ) - few) / bound + (bound : ℚ)⁻¹ := by
        push_cast
        ring
      rw [harmonic_succ, hSplit]
      linarith

theorem harmonic_le_harmonic
    {few many : Nat}
    (h : few ≤ many) :
    harmonic few ≤ harmonic many := by
  have hDiv := div_le_harmonic_sub_harmonic h le_rfl
  have hCast : (few : ℚ) ≤ many := Nat.cast_le.2 h
  have hNonneg : 0 ≤ ((many : ℚ) - few) / many := by
    have := sub_nonneg.2 hCast
    positivity
  linarith

------------------------------------------------------------
-- Potentials
------------------------------------------------------------

/- What a set of rows has still to give. -/
def potential
    (rows : Finset Row)
    (assignments : Finset (List Bool)) : ℚ :=
  ∑ row ∈ rows, harmonic (row.among assignments).card

theorem potential_nonneg
    (rows : Finset Row)
    (assignments : Finset (List Bool)) :
    0 ≤ potential rows assignments := by
  apply Finset.sum_nonneg
  intro row _
  rw [← harmonic_zero]
  exact harmonic_le_harmonic (Nat.zero_le _)

/- Covering rows have parts of a share that add up to it. -/
theorem card_among_le_sum
    {rows : Finset Row}
    {assignments : Finset (List Bool)}
    (h : Covers rows assignments)
    (selected : Row) :
    (selected.among assignments).card ≤
      ∑ row ∈ rows,
        (row.among (selected.among assignments)).card := by
  have hSubset :
      selected.among assignments ⊆
        rows.biUnion
          (fun row =>
            row.among (selected.among assignments)) := by
    intro assignment hShare
    rcases h assignment
        (Row.among_subset selected assignments hShare) with
      ⟨row, hRow, hSat⟩
    exact Finset.mem_biUnion.2
      ⟨row, hRow, Row.mem_among_iff.2 ⟨hShare, hSat⟩⟩
  exact Nat.le_trans (Finset.card_le_card hSubset)
    Finset.card_biUnion_le

section Greedy

variable {implicants : List Row}
variable {rows : Finset Row}
variable {uncovered : Finset (List Bool)}

/-
  A row loses at least the part that it has of the pick,
  measured by the size of the pick.
-/
theorem IsGreedyChoice.div_le_harmonic_sub
    {pick row : Row}
    (h : IsGreedyChoice implicants uncovered pick)
    (hRow : row ∈ implicants) :
    ((row.among (pick.among uncovered)).card : ℚ) /
        (pick.among uncovered).card ≤
      harmonic (row.among uncovered).card -
        harmonic
          (row.among (remainder uncovered [pick])).card := by
  have hPart :
      row.among (pick.among uncovered) ⊆
        row.among uncovered := by
    intro assignment hMem
    rw [Row.mem_among_iff] at hMem ⊢
    exact ⟨Row.among_subset pick uncovered hMem.1, hMem.2⟩
  have hCard :
      (row.among (remainder uncovered [pick])).card +
          (row.among (pick.among uncovered)).card =
        (row.among uncovered).card := by
    rw [among_remainder_singleton]
    exact Finset.card_sdiff_add_card_eq_card hPart
  have hLess :
      (row.among (remainder uncovered [pick])).card ≤
        (row.among uncovered).card :=
    Nat.le.intro hCard
  have hLost :
      ((row.among (pick.among uncovered)).card : ℚ) =
        (row.among uncovered).card -
          (row.among (remainder uncovered [pick])).card := by
    rw [← hCard]
    push_cast
    ring
  rw [hLost]
  exact div_le_harmonic_sub_harmonic hLess
    (h.card_le row hRow)

/- A pick lowers the potential of covering rows by one. -/
theorem potential_remainder_add_one_le
    {pick : Row}
    (h : IsGreedyChoice implicants uncovered pick)
    (hRows : ∀ row ∈ rows, row ∈ implicants)
    (hCovers : Covers rows uncovered) :
    potential rows (remainder uncovered [pick]) + 1 ≤
      potential rows uncovered := by
  have hPos : (0 : ℚ) < (pick.among uncovered).card :=
    Nat.cast_pos.2 h.one_le_card
  have hParts :
      ((pick.among uncovered).card : ℚ) ≤
        ∑ row ∈ rows,
          ((row.among (pick.among uncovered)).card : ℚ) := by
    exact_mod_cast card_among_le_sum hCovers pick
  have hOne :
      1 ≤ potential rows uncovered -
        potential rows (remainder uncovered [pick]) :=
    calc
      (1 : ℚ) ≤
          (∑ row ∈ rows,
            ((row.among (pick.among uncovered)).card : ℚ)) /
              (pick.among uncovered).card :=
        (one_le_div hPos).2 hParts
      _ = ∑ row ∈ rows,
            ((row.among (pick.among uncovered)).card : ℚ) /
              (pick.among uncovered).card :=
        Finset.sum_div _ _ _
      _ ≤ ∑ row ∈ rows,
            (harmonic (row.among uncovered).card -
              harmonic
                (row.among
                  (remainder uncovered [pick])).card) :=
        Finset.sum_le_sum fun row hRow =>
          h.div_le_harmonic_sub (hRows row hRow)
      _ = potential rows uncovered -
            potential rows (remainder uncovered [pick]) :=
        Finset.sum_sub_distrib _ _
  linarith

/- There are no more picks than the potential pays for. -/
theorem GreedySelection.length_le_potential
    {picks : List Row}
    (h : GreedySelection implicants uncovered picks)
    (hRows : ∀ row ∈ rows, row ∈ implicants)
    (hCovers : Covers rows uncovered) :
    (picks.length : ℚ) ≤ potential rows uncovered := by
  induction h with
  | done =>
      rw [List.length_nil, Nat.cast_zero]
      exact potential_nonneg rows ∅
  | @pick uncovered pick picks hChoice hRest ih =>
      have hLater := ih (hCovers.remainder [pick])
      have hStep :=
        potential_remainder_add_one_le hChoice hRows hCovers
      rw [List.length_cons, Nat.cast_succ]
      linarith

end Greedy

------------------------------------------------------------
-- The Bound
------------------------------------------------------------

/- The most assignments that one of the rows satisfies. -/
def largestShare
    (rows : List Row)
    (assignments : Finset (List Bool)) : Nat :=
  rows.toFinset.sup
    (fun row => (row.among assignments).card)

theorem card_among_le_largestShare
    {rows : List Row}
    {row : Row}
    (h : row ∈ rows)
    (assignments : Finset (List Bool)) :
    (row.among assignments).card ≤
      largestShare rows assignments :=
  Finset.le_sup
    (f := fun row : Row => (row.among assignments).card)
    (List.mem_toFinset.2 h)

theorem potential_le_harmonic_mul
    {implicants : List Row}
    {rows : Finset Row}
    (hRows : ∀ row ∈ rows, row ∈ implicants)
    (assignments : Finset (List Bool)) :
    potential rows assignments ≤
      harmonic (largestShare implicants assignments) *
        rows.card := by
  rw [mul_comm, ← nsmul_eq_mul]
  apply Finset.sum_le_card_nsmul
  intro row hRow
  exact harmonic_le_harmonic
    (card_among_le_largestShare (hRows row hRow) assignments)

namespace Chart

/-
  The greedy rows are at most as many as the rows of any
  competing cover beyond the essential ones, times a harmonic
  number: that of the largest share an implicant has of what
  the essential rows leave over.
-/
theorem length_greedy_le_harmonic_mul
    {primes : RowSet}
    {chart : Chart}
    {table : Table}
    {cover : Cover}
    (hChart : Chart.ofPrimes primes = .ok chart)
    (hCover : chart.cover table = .ok cover)
    {rows : RowSet}
    (hRows : chart.IsCoverOf table rows) :
    (cover.greedy.length : ℚ) ≤
      harmonic
          (largestShare chart.implicants
            (remainder table.onSet cover.essential.toList)) *
        ((rows.size : ℚ) - cover.essential.size) := by
  have h := isChartOf_of_ofPrimes hChart
  rcases h.exists_rest_of_isCoverOf hCover hRows with
    ⟨rest, hRest, hCovers, hCard⟩
  have hCount :
      (rows.size : ℚ) - cover.essential.size = rest.card := by
    rw [← hCard]
    push_cast
    ring
  rw [hCount]
  calc
    (cover.greedy.length : ℚ) ≤
        potential rest
          (remainder table.onSet cover.essential.toList) :=
      (h.greedySelection_of_cover_eq_ok
        hCover).length_le_potential hRest hCovers
    _ ≤ _ := potential_le_harmonic_mul hRest _

theorem length_greedy_sevenMinterms_le :
    ∃ chart cover,
      Chart.ofPrimes Table.sevenPrimes = .ok chart ∧
      chart.cover Table.sevenMinterms = .ok cover ∧
      chart.IsCoverOf Table.sevenMinterms
        Table.sevenAlternative ∧
      (cover.greedy.length : ℚ) ≤
        harmonic
            (largestShare chart.implicants
              (remainder Table.sevenMinterms.onSet
                cover.essential.toList)) *
          ((Table.sevenAlternative.size : ℚ) -
            cover.essential.size) := by
  rcases exists_cover_sevenMinterms with
    ⟨chart, cover, hChart, hCover, _, _⟩
  have hPrimes :
      ∀ row ∈ Table.sevenAlternative,
        row ∈ Table.sevenPrimes := by
    decide +kernel
  have hHolds :
      ∀ assignment ∈ Table.sevenMinterms.onSet,
        ∃ row ∈ Table.sevenAlternative.toList,
          row.satisfiedBy assignment = true := by
    decide +kernel
  have hRows :
      chart.IsCoverOf Table.sevenMinterms
        Table.sevenAlternative := by
    refine ⟨fun row hRow => ?_, fun assignment h => ?_⟩
    · exact
        (isChartOf_of_ofPrimes hChart).mem_implicants_iff.2
          (hPrimes row hRow)
    · exact hHolds assignment (Table.mem_onSet_iff.2 h)
  exact ⟨chart, cover, hChart, hCover, hRows,
    length_greedy_le_harmonic_mul hChart hCover hRows⟩

end Chart

end TwoLevel
