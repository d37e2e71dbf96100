import Mathlib.Order.Bounds.Defs
import TwoLevel.Proofs.Reduction.Arrival
import TwoLevel.Proofs.Reduction.FixedPoints

/-
  This file counts the rounds of a reduction. The number of
  rows is no measure for them, since there may be more rows
  from one round to the next. But every merge adds a
  don't-care. So a row has at least as many don't-cares as
  there were rounds before, and no more than variables.

  The last round merges nothing, and its rows are primes. If
  all rows of the start have equally many don't-cares, no
  other prime has more of them.

  Main theorems:
    * `mergeFree_of_getLast?_rounds`
    * `le_dontCares_of_mem_working`
    * `length_rounds_le`
    * `exists_isGreatest_dontCares`
    * `exists_reduction_length_le`
-/

namespace TwoLevel

section Counting

variable {config : Config}
variable {working : List Row}

------------------------------------------------------------
-- The Last Round
------------------------------------------------------------

theorem rounds_eq_nil_iff :
    rounds config working = [] ↔ working = [] := by
  cases working with
  | nil => simp [rounds]
  | cons first rest => simp [rounds]

/- The rounds go on until one of them merges nothing. -/
theorem mergeFree_of_getLast?_rounds
    {last : Round}
    (h : (rounds config working).getLast? = some last) :
    last.working ≠ [] ∧ MergeFree last.working := by
  induction working using roundsInduction config with
  | done =>
      rw [rounds] at h
      cases h
  | round first rest ih =>
      rw [rounds] at h
      cases hLater :
          rounds config
            (Round.ofRows config
              (first :: rest)).merged.toList with
      | nil =>
          rw [hLater, List.getLast?_singleton] at h
          rw [← Option.some.inj h, Round.working_ofRows]
          exact ⟨List.cons_ne_nil first rest,
            Round.mergeFree_of_merged_eq_nil
              (rounds_eq_nil_iff.1 hLater)⟩
      | cons next later =>
          rw [hLater, List.getLast?_cons_cons, ← hLater] at h
          exact ih h

/- A row of the last round is left over, so it is prime. -/
theorem exists_prime_of_last_round
    (config : Config)
    (hRows : working ≠ []) :
    ∃ last,
      (rounds config working).getLast? = some last ∧
      ∃ prime ∈ last.working,
        prime ∈ primesOf (rounds config working) := by
  have hRounds : rounds config working ≠ [] :=
    mt rounds_eq_nil_iff.1 hRows
  have hLast := List.getLast?_eq_some_getLast hRounds
  rcases mergeFree_of_getLast?_rounds hLast with
    ⟨hSome, hFree⟩
  rcases List.exists_mem_of_ne_nil _ hSome with
    ⟨prime, hPrime⟩
  refine ⟨_, hLast, prime, hPrime, ?_⟩
  rw [List.getLast?_eq_getElem?] at hLast
  exact mem_primesOf_rounds_iff_exists_getElem?.2
    ⟨_, _, hLast, hPrime, hFree prime hPrime⟩

------------------------------------------------------------
-- Levels
------------------------------------------------------------

/- Each round before adds a don't-care to every row. -/
theorem le_dontCares_of_mem_working
    {level k : Nat}
    {round : Round}
    (hLevel : ∀ row ∈ working, level ≤ row.dontCares)
    (hRound : (rounds config working)[k]? = some round) :
    ∀ row ∈ round.working, level + k ≤ row.dontCares := by
  refine holds_of_mem_working
    (fun k row => level + k ≤ row.dontCares) ?_ hLevel hRound
  intro k a b c ha _ hab
  have hCount := (Row.dontCares_of_merge hab).1
  show level + (k + 1) ≤ c.dontCares
  omega

------------------------------------------------------------
-- The Number of Rounds
------------------------------------------------------------

/- Some prime is as high as the rounds before the last. -/
theorem exists_prime_length_le
    (config : Config)
    (hRows : working ≠ [])
    {level : Nat}
    (hLevel : ∀ row ∈ working, level ≤ row.dontCares) :
    ∃ prime ∈ primesOf (rounds config working),
      level + (rounds config working).length ≤
        prime.dontCares + 1 := by
  rcases exists_prime_of_last_round config hRows with
    ⟨last, hLast, prime, hMem, hPrime⟩
  rw [List.getLast?_eq_getElem?] at hLast
  have hLe :=
    le_dontCares_of_mem_working hLevel hLast prime hMem
  exact ⟨prime, hPrime, by omega⟩

/- A row has no more don't-cares than variables. -/
theorem length_rounds_le
    (config : Config)
    {arity : Nat}
    (hArity : ∀ row ∈ working, row.arity = arity) :
    (rounds config working).length ≤ arity + 1 := by
  by_cases hRows : working = []
  · rw [rounds_eq_nil_iff.2 hRows]
    exact Nat.zero_le _
  · rcases exists_prime_length_le config hRows
        (fun row _ => Nat.zero_le row.dontCares) with
      ⟨prime, hPrime, hLength⟩
    rcases exists_within_of_mem_primes hPrime with
      ⟨row, hRow, hWithin⟩
    have hEq := Row.arity_eq_of_within hWithin
    have hSum := prime.literalCount_add_dontCares
    rw [← hEq, hArity row hRow] at hSum
    omega

/- Rows of one level leave no prime over after the rounds. -/
theorem dontCares_lt_of_mem_primes
    {level : Nat}
    (hLevel : ∀ row ∈ working, row.dontCares = level)
    {prime : Row}
    (hPrime : prime ∈ primesOf (rounds config working)) :
    prime.dontCares <
      level + (rounds config working).length := by
  rcases mem_primesOf_rounds_iff_exists_getElem?.1 hPrime with
    ⟨k, round, hRound, hMem, _⟩
  have hEq :=
    dontCares_eq_of_mem_working hLevel hRound prime hMem
  have hLt := (List.getElem?_eq_some_iff.1 hRound).1
  omega

/-
  Rows of one level take one round more than the levels from
  there to the highest prime.
-/
theorem exists_isGreatest_dontCares
    (config : Config)
    (hRows : working ≠ [])
    {level : Nat}
    (hLevel : ∀ row ∈ working, row.dontCares = level) :
    ∃ largest,
      IsGreatest
        {count | ∃ prime ∈ primesOf (rounds config working),
          prime.dontCares = count}
        largest ∧
      level + (rounds config working).length =
        largest + 1 := by
  rcases exists_prime_length_le config hRows
      (fun row hRow => Nat.le_of_eq (hLevel row hRow).symm)
    with ⟨prime, hPrime, hLength⟩
  have hLt := dontCares_lt_of_mem_primes hLevel hPrime
  refine ⟨prime.dontCares, ⟨⟨prime, hPrime, rfl⟩, ?_⟩,
    by omega⟩
  rintro count ⟨other, hOther, rfl⟩
  have := dontCares_lt_of_mem_primes hLevel hOther
  omega

end Counting

------------------------------------------------------------
-- Reducing a Table
------------------------------------------------------------

namespace Table

/-
  Reducing a table comes to an end, after at most one round
  more than it has variables. It goes one way only, whatever
  the order in which the merges of its rounds arrive. The rows
  of a round have at least as many don't-cares as there were
  rounds before. If the table has none, they have just as
  many, and the rounds before the last are as many as the
  don't-cares of the largest prime.
-/
theorem exists_reduction_length_le
    (config : Config)
    {table : Table}
    (hRows : table.isEmpty = false) :
    ∃ run primes,
      table.reduction config = .ok run ∧
      table.reduce config = .ok primes ∧
      (∀ other,
        AreRoundsOf config table.rows.toList other ↔
          other = run) ∧
      run.length ≤ table.arity + 1 ∧
      (∀ (k : Nat) (round : Round), run[k]? = some round →
        ∀ row ∈ round.working, k ≤ row.dontCares) ∧
      ((∀ row ∈ table.rows, row.isAssignment = true) →
        (∀ (k : Nat) (round : Round), run[k]? = some round →
          ∀ row ∈ round.working, row.dontCares = k) ∧
        ∃ largest,
          IsGreatest
            {count | ∃ prime ∈ primes,
              prime.dontCares = count}
            largest ∧
          run.length = 1 + largest) := by
  have hRun :
      table.reduction config =
        .ok (rounds config table.rows.toList) := by
    rw [reduction, hRows]
    rfl
  refine ⟨_, _, hRun, reduce_eq_ok config hRows,
    fun _ => areRoundsOf_iff,
    length_rounds_le config table.row_arity, ?_, ?_⟩
  · intro k round hRound row hRow
    have hLe :=
      le_dontCares_of_mem_working
        (fun row _ => Nat.zero_le row.dontCares)
        hRound row hRow
    omega
  · intro hFull
    have hLevel :
        ∀ row ∈ table.rows.toList, row.dontCares = 0 :=
      fun row hRow => Row.isAssignment_iff.1 (hFull row hRow)
    refine ⟨?_, ?_⟩
    · intro k round hRound row hRow
      have hEq :=
        dontCares_eq_of_mem_working hLevel hRound row hRow
      omega
    · have hSome : table.rows.toList ≠ [] := by
        rcases OrderedSet.exists_first?_eq_some hRows with
          ⟨first, hFirst, _⟩
        exact List.ne_nil_of_mem hFirst
      rcases exists_isGreatest_dontCares config hSome hLevel
        with ⟨largest, hLargest, hLength⟩
      exact ⟨largest, hLargest, by omega⟩

/-
  Eight assignments that merge into a single row, and one that
  merges with one of them only.
-/
def terraced : Table where
  arity := 4
  rows :=
    OrderedSet.ofList
      ([0, 1, 2, 3, 4, 5, 6, 7, 15].map
        (fun i => Row.ofIndex i 4))
  arity_pos := Nat.succ_pos 3
  row_arity := by decide +kernel

/- The primes are `0---` and `-111`, after four rounds. -/
theorem exists_reduction_terraced_length_le :
    terraced.isEmpty = false ∧
      (∀ row ∈ terraced.rows, row.isAssignment = true) ∧
      ∃ run primes,
        terraced.reduction {} = .ok run ∧
        terraced.reduce {} = .ok primes ∧
        AreRoundsOf {} terraced.rows.toList run ∧
        run.length ≤ 5 ∧
        (∀ (k : Nat) (round : Round), run[k]? = some round →
          ∀ row ∈ round.working, row.dontCares = k) ∧
        ∃ largest,
          IsGreatest
            {count | ∃ prime ∈ primes,
              prime.dontCares = count}
            largest ∧
          run.length = 1 + largest := by
  have hRows : terraced.isEmpty = false := by decide +kernel
  have hFull :
      ∀ row ∈ terraced.rows, row.isAssignment = true := by
    decide +kernel
  rcases exists_reduction_length_le {} hRows with
    ⟨run, primes, hRun, hPrimes, hOnly, hLength, _, hLevels⟩
  rcases hLevels hFull with ⟨hLevel, hLargest⟩
  exact ⟨hRows, hFull, run, primes, hRun, hPrimes,
    (hOnly run).2 rfl, hLength, hLevel, hLargest⟩

end Table

end TwoLevel
