import TwoLevel.Proofs.Minimization.Outcome
import TwoLevel.Proofs.Reduction.FixedPoints
import TwoLevel.Proofs.Reduction.Saturation

/-
  This file says how far a result depends on the way in which
  a function is written. Tables with the same minterms have
  results that agree everywhere. The cover is selected from
  the primes by the minterms, so it is settled by the primes.
  The primes themselves are those of the function when the
  table is saturated, and may be others when it is not.

  Main theorems:
    * `Chart.cover_congr`
    * `minimize_congr`
    * `holds_eq_of_minterms_eq`
    * `minimize_of_minterms_eq`
-/

namespace TwoLevel

/- A selection looks at the minterms of a table only. -/
theorem Chart.cover_congr
    {s t : Table}
    (hArity : s.arity = t.arity)
    (hMinterms : s.minterms = t.minterms)
    (chart : Chart) :
    chart.cover s = chart.cover t := by
  rw [cover, cover, select, select, hArity, hMinterms]

namespace Table

section Representation

variable {config config' : Config}
variable {s t : Table}

/- Minimization looks at the primes and minterms only. -/
theorem minimize_congr
    (hArity : s.arity = t.arity)
    (hMinterms : s.minterms = t.minterms)
    (hReduce : s.reduce config = t.reduce config') :
    s.minimize config = t.minimize config' := by
  simp only [minimize, hReduce, hArity,
    Chart.cover_congr hArity hMinterms]

/- The minterms of a table are its function. -/
theorem holds_eq_of_minterms_eq
    (hArity : s.arity = t.arity)
    (hLe : s.arity ≤ maxEnumerable)
    (hMinterms : s.minterms = t.minterms) :
    s.Holds = t.Holds := by
  rw [minterms_eq_ok hLe, minterms_eq_ok (hArity ▸ hLe)]
    at hMinterms
  have hSet := Except.ok.inj hMinterms
  funext assignment
  rw [eq_iff_iff, holds_iff_exists_minterm,
    holds_iff_exists_minterm, hSet, hArity]

/-
  The results of tables with the same minterms are true on the
  same assignments. They are equal as soon as the primes are,
  and so whenever both tables are saturated: then the primes
  are all prime implicants of the function.
-/
theorem minimize_of_minterms_eq
    (config config' : Config)
    (hs : s.isEmpty = false)
    (ht : t.isEmpty = false)
    (hArity : s.arity = t.arity)
    (hLe : s.arity ≤ maxEnumerable)
    (hMinterms : s.minterms = t.minterms) :
    ∃ left right,
      s.minimize config = .ok left ∧
      t.minimize config' = .ok right ∧
      (∀ assignment,
        left.evaluate assignment =
          right.evaluate assignment) ∧
      (left.primes = right.primes → left = right) ∧
      (s.IsSaturated →
        ∀ row, row ∈ left.primes ↔
          row.IsPrimeImplicant s.Holds s.arity) ∧
      (s.IsSaturated → t.IsSaturated → left = right) := by
  rcases exists_minimize_eq_ok config hs hLe with
    ⟨left, hLeft⟩
  rcases exists_minimize_eq_ok config' ht (hArity ▸ hLe) with
    ⟨right, hRight⟩
  have hHolds := holds_eq_of_minterms_eq hArity hLe hMinterms
  have hReduceS := (exists_chart_of_minimize_eq_ok hLeft).1
  have hReduceT := (exists_chart_of_minimize_eq_ok hRight).1
  have hPrimesS : s.IsSaturated →
      ∀ row, row ∈ left.primes ↔
        row.IsPrimeImplicant s.Holds s.arity :=
    fun h _ => mem_reduce_iff_of_isSaturated h hReduceS
  have hSame : left.primes = right.primes → left = right := by
    intro hPrimes
    have hReduce : s.reduce config = t.reduce config' := by
      rw [hReduceS, hReduceT, hPrimes]
    have hResult := minimize_congr hArity hMinterms hReduce
    rw [hLeft, hRight] at hResult
    exact Except.ok.inj hResult
  refine ⟨left, right, hLeft, hRight, ?_, hSame, hPrimesS,
    ?_⟩
  · intro assignment
    rw [Bool.eq_iff_iff, evaluate_iff_holds hLeft,
      evaluate_iff_holds hRight, hHolds]
  · intro hSatS hSatT
    apply hSame
    ext row
    rw [hPrimesS hSatS, hHolds, hArity]
    exact (mem_reduce_iff_of_isSaturated hSatT hReduceT).symm

end Representation

/- The implication by its prime implicants. -/
def clauses : Table where
  arity := 2
  rows :=
    OrderedSet.ofList
      [⟨[.zero, .dontCare]⟩, ⟨[.dontCare, .one]⟩]
  arity_pos := Nat.two_pos
  row_arity := by decide +kernel

/- Its assignments and its primes have the same result. -/
theorem minimize_implication_eq :
    implication.isEmpty = false ∧
      clauses.isEmpty = false ∧
      implication.arity = clauses.arity ∧
      implication.arity ≤ maxEnumerable ∧
      implication.minterms = clauses.minterms ∧
      ∃ left right,
        implication.minimize {} = .ok left ∧
        clauses.minimize {} = .ok right ∧
        left = right := by
  have hs : implication.isEmpty = false := by decide +kernel
  have ht : clauses.isEmpty = false := by decide +kernel
  have hLe : implication.arity ≤ maxEnumerable := by
    decide +kernel
  have hMinterms :
      implication.minterms = clauses.minterms := by
    decide +kernel
  have hFull :
      ∀ row ∈ implication.rows, row.isAssignment = true := by
    decide +kernel
  have hReduce : implication.reduce {} = .ok clauses.rows := by
    decide +kernel
  have hSatS := isSaturated_of_isAssignment hFull
  have hSatT : clauses.IsSaturated :=
    isSaturated_of_reduce hSatS hReduce rfl rfl
  rcases minimize_of_minterms_eq {} {} hs ht rfl hLe
      hMinterms with
    ⟨left, right, hLeft, hRight, _, _, _, hEqual⟩
  exact ⟨hs, ht, rfl, hLe, hMinterms, left, right, hLeft,
    hRight, hEqual hSatS hSatT⟩

/- All assignments of two variables. -/
def square : Table where
  arity := 2
  rows :=
    OrderedSet.ofList
      ([[false, false], [false, true], [true, false],
        [true, true]].map Row.ofBools)
  arity_pos := Nat.two_pos
  row_arity := by decide +kernel

/-
  Rows of mixed levels have the same minterms, but not the
  prime implicant that has them all.
-/
theorem minimize_mixedLevels_ne :
    mixedLevels.minterms = square.minterms ∧
      ∃ left right,
        mixedLevels.minimize {} = .ok left ∧
        square.minimize {} = .ok right ∧
        left.primes ≠ right.primes ∧
        left.cover ≠ right.cover := by
  have hMinterms : mixedLevels.minterms = square.minterms := by
    decide +kernel
  have hLeft :
      mixedLevels.minimize {} =
        .ok
          { arity := 2
            primes := halves.rows
            cover :=
              { essential := halves.rows, greedy := [] } } := by
    decide +kernel
  have hRight :
      square.minimize {} =
        .ok
          { arity := 2
            primes := OrderedSet.ofList
              [⟨[.dontCare, .dontCare]⟩]
            cover :=
              { essential := OrderedSet.ofList
                  [⟨[.dontCare, .dontCare]⟩]
                greedy := [] } } := by
    decide +kernel
  exact ⟨hMinterms, _, _, hLeft, hRight,
    by decide +kernel, by decide +kernel⟩

end Table

end TwoLevel
