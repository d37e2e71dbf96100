import TwoLevel.Proofs.Chart.Columns

/-
  This file says when a chart can be built. Implicants of one
  positive arity have a chart as long as their assignments are
  enumerable, and are refused for their arity otherwise.

  Main theorems:
    * `exists_ofPrimes_eq_ok`
    * `ofPrimes_eq_error_of_lt`
-/

namespace TwoLevel

theorem checkEnumerable_eq_error_of_lt
    {arity : Nat}
    (h : maxEnumerable < arity) :
    checkEnumerable arity =
      .error (.malformed (.arityTooLarge arity)) := by
  have hNe : arity ≠ 0 := by omega
  rw [checkEnumerable, if_neg hNe, if_pos h]

namespace Chart

/- A row of the chart's arity has a line. -/
theorem exists_lineOf_eq_ok
    {arity : Nat}
    {entry : Row × Nat}
    (h : entry.1.arity = arity) :
    ∃ line, lineOf arity entry = .ok line := by
  rcases columnsOf_eq_ok arity entry.1 with
    ⟨columns, hColumns, _⟩
  rw [lineOf, if_pos h, hColumns]
  exact ⟨_, rfl⟩

section Building

variable {primes : RowSet}
variable {arity : Nat}

theorem exists_ofPrimes_eq_ok
    (hPrimes : primes.isEmpty = false)
    (hArity : ∀ row ∈ primes, row.arity = arity)
    (hPos : 0 < arity)
    (hLe : arity ≤ maxEnumerable) :
    ∃ chart, ofPrimes primes = .ok chart ∧
      chart.arity = arity := by
  rcases OrderedSet.exists_first?_eq_some hPrimes with
    ⟨first, hFirst, hFirstOf⟩
  have hLines :
      ∀ entry ∈ primes.toList.zipIdx,
        ∃ line, lineOf arity entry = .ok line := by
    intro entry hEntry
    exact exists_lineOf_eq_ok
      (hArity entry.1 (List.fst_mem_of_mem_zipIdx hEntry))
  rcases exists_mapM_eq_ok hLines with ⟨lines, hMapM⟩
  have hCheck :=
    checkEnumerable_eq_ok_iff.2 ⟨hPos, hLe⟩
  refine ⟨{ arity, lines }, ?_, rfl⟩
  rw [ofPrimes, hFirstOf]
  dsimp only
  rw [hArity first hFirst, if_neg (Nat.ne_of_gt hPos),
    hCheck, hMapM]
  rfl

/- The arity is refused before any column is looked at. -/
theorem ofPrimes_eq_error_of_lt
    (hPrimes : primes.isEmpty = false)
    (hArity : ∀ row ∈ primes, row.arity = arity)
    (hLt : maxEnumerable < arity) :
    ofPrimes primes =
      .error (.malformed (.arityTooLarge arity)) := by
  rcases OrderedSet.exists_first?_eq_some hPrimes with
    ⟨first, hFirst, hFirstOf⟩
  have hNe : arity ≠ 0 := by omega
  rw [ofPrimes, hFirstOf]
  dsimp only
  rw [hArity first hFirst, if_neg hNe,
    checkEnumerable_eq_error_of_lt hLt]
  rfl

end Building

end Chart

end TwoLevel
