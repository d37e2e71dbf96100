import TwoLevel.Proofs.Reduction.Comparison
import TwoLevel.Proofs.Table.Minterms

/-
  This file shows what the rounds of a reduction preserve. A
  row that takes part in a merge lives on inside the merged
  row, so every row of the start lies inside a prime. A prime
  stands for nothing but the rows of the start inside it. So
  the primes and the table stand for the same function.

  Main theorems:
    * `mem_primesOf_rounds_iff`
    * `mem_primesOf_rounds_iff_exists_getElem?`
    * `holds_of_mem_working`
    * `arity_of_mem_working`
    * `exists_prime_of_mem`
    * `satisfiedBy_prime_iff`
    * `exists_within_of_mem_primes`
    * `reduce_eq_ok_iff`
    * `holds_iff_exists_prime`
    * `exists_reduce_conserving`
-/

namespace TwoLevel

------------------------------------------------------------
-- One Round
------------------------------------------------------------

theorem Round.merged_ofRows_nil
    (config : Config) :
    (Round.ofRows config []).merged = ∅ := by
  ext c
  rw [mem_merged_iff]
  simp

/- The next round is over the same variables. -/
theorem Round.arity_of_mem_merged
    {config : Config}
    {working : List Row}
    {arity : Nat}
    (hArity : ∀ row ∈ working, row.arity = arity) :
    ∀ row ∈ (Round.ofRows config working).merged.toList,
      row.arity = arity := by
  intro row hRow
  rw [OrderedSet.mem_toList_iff, mem_merged_iff] at hRow
  rcases hRow with ⟨a, ha, b, _, hMerge⟩
  exact (Row.arity_of_merge hMerge).1.symm.trans
    (hArity a ha)

/-
  A prime is found in the first round or in the rounds that
  begin with the merged rows.
-/
theorem mem_primesOf_rounds_iff
    {config : Config}
    {working : List Row}
    {prime : Row} :
    prime ∈ primesOf (rounds config working) ↔
      prime ∈ (Round.ofRows config working).unmerged ∨
        prime ∈ primesOf (rounds config
          (Round.ofRows config working).merged.toList) := by
  rw [mem_primesOf_iff, mem_primesOf_iff]
  cases working with
  | nil =>
      rw [Round.merged_ofRows_nil, Round.mem_unmerged_iff]
      simp [rounds]
  | cons first rest =>
      rw [rounds]
      simp only [List.mem_cons, exists_eq_or_imp]

------------------------------------------------------------
-- All Rounds
------------------------------------------------------------

/- Induction from the rows of a round back to those before. -/
@[elab_as_elim] theorem roundsInduction
    (config : Config)
    {motive : List Row → Prop}
    (done : motive [])
    (round :
      ∀ first rest,
        motive (Round.ofRows config
          (first :: rest)).merged.toList →
        motive (first :: rest))
    (working : List Row) :
    motive working :=
  rounds.induct config motive done round working

/- Every round is the comparison of all its rows. -/
theorem eq_ofRows_of_mem_rounds
    {config : Config}
    {working : List Row}
    {round : Round}
    (h : round ∈ rounds config working) :
    round = Round.ofRows config round.working := by
  induction working using roundsInduction config with
  | done =>
      rw [rounds] at h
      cases h
  | round first rest ih =>
      rw [rounds] at h
      rcases List.mem_cons.1 h with rfl | hLater
      · rw [Round.working_ofRows]
      · exact ih hLater

/- A prime is a row that merges with no other of its round. -/
theorem mem_primesOf_rounds_iff_exists_getElem?
    {config : Config}
    {working : List Row}
    {prime : Row} :
    prime ∈ primesOf (rounds config working) ↔
      ∃ (k : Nat) (round : Round),
        (rounds config working)[k]? = some round ∧
        prime ∈ round.working ∧
        ∀ other ∈ round.working, prime.merge other = none := by
  rw [mem_primesOf_iff]
  constructor
  · intro hGiven
    rcases hGiven with ⟨round, hRound, hUnmerged⟩
    rcases List.getElem?_of_mem hRound with ⟨k, hk⟩
    rw [eq_ofRows_of_mem_rounds hRound] at hUnmerged
    exact ⟨k, round, hk, Round.mem_unmerged_iff.1 hUnmerged⟩
  · intro hGiven
    rcases hGiven with ⟨k, round, hk, hPrime⟩
    have hRound := List.mem_of_getElem? hk
    refine ⟨round, hRound, ?_⟩
    rw [eq_ofRows_of_mem_rounds hRound]
    exact Round.mem_unmerged_iff.2 hPrime

/-
  What holds of the rows of the start, and passes one level
  up from two rows to their merge, holds of the rows of each
  round at the level that is the number of rounds before it.
-/
theorem holds_of_mem_working
    {config : Config}
    {working : List Row}
    (holds : Nat → Row → Prop)
    (hMerge :
      ∀ k a b c, holds k a → holds k b →
        a.merge b = some c → holds (k + 1) c)
    (hStart : ∀ row ∈ working, holds 0 row)
    {k : Nat}
    {round : Round}
    (hRound : (rounds config working)[k]? = some round) :
    ∀ row ∈ round.working, holds k row := by
  induction working using roundsInduction config
      generalizing holds k with
  | done =>
      rw [rounds] at hRound
      cases hRound
  | round first rest ih =>
      rw [rounds] at hRound
      cases k with
      | zero =>
          cases hRound
          rw [Round.working_ofRows]
          exact hStart
      | succ k =>
          refine ih (fun level => holds (level + 1))
            (fun level => hMerge (level + 1)) ?_ hRound
          intro c hc
          rcases Round.mem_merged_iff.1 hc with
            ⟨a, ha, b, hb, hab⟩
          exact hMerge 0 a b c (hStart a ha) (hStart b hb)
            hab

/- All rounds are over the variables of the first. -/
theorem arity_of_mem_working
    {config : Config}
    {working : List Row}
    {arity : Nat}
    (hArity : ∀ row ∈ working, row.arity = arity) :
    ∀ round ∈ rounds config working,
      ∀ row ∈ round.working, row.arity = arity := by
  intro round hRound
  rcases List.getElem?_of_mem hRound with ⟨k, hk⟩
  refine holds_of_mem_working (fun _ row => row.arity = arity)
    ?_ hArity hk
  intro _ a b c ha _ hab
  exact (Row.arity_of_merge hab).1.symm.trans ha

/- No row is lost: it ends up inside some prime. -/
theorem exists_prime_of_mem
    (config : Config)
    {working : List Row}
    {row : Row}
    (hRow : row ∈ working) :
    ∃ prime ∈ primesOf (rounds config working),
      row.Within prime := by
  induction working using roundsInduction config
      generalizing row with
  | done => cases hRow
  | round first rest ih =>
      by_cases hMerge :
          ∀ other ∈ first :: rest, row.merge other = none
      · refine ⟨row, ?_, Row.Within.refl row⟩
        exact mem_primesOf_rounds_iff.2
          (Or.inl (Round.mem_unmerged_iff.2 ⟨hRow, hMerge⟩))
      · push Not at hMerge
        rcases hMerge with ⟨other, hOther, hSome⟩
        rcases Option.ne_none_iff_exists'.1 hSome with
          ⟨merged, hMerged⟩
        have hMem :
            merged ∈ (Round.ofRows config
              (first :: rest)).merged :=
          Round.mem_merged_iff.2
            ⟨row, hRow, other, hOther, hMerged⟩
        rcases ih hMem with ⟨prime, hPrime, hWithin⟩
        refine ⟨prime, ?_, ?_⟩
        · exact mem_primesOf_rounds_iff.2 (Or.inr hPrime)
        · exact (Row.left_within_of_merge hMerged).trans
            hWithin

/-
  Nothing is gained: a prime stands for just the rows of the
  start that lie inside it.
-/
theorem satisfiedBy_prime_iff
    {config : Config}
    {working : List Row}
    {prime : Row}
    (hPrime : prime ∈ primesOf (rounds config working))
    (assignment : List Bool) :
    prime.satisfiedBy assignment = true ↔
      ∃ row ∈ working, row.Within prime ∧
        row.satisfiedBy assignment = true := by
  constructor
  · induction working using roundsInduction config with
    | done => simp [rounds, primesOf] at hPrime
    | round first rest ih =>
        intro hSat
        rcases mem_primesOf_rounds_iff.1 hPrime with
          hUnmerged | hLater
        · have hMem := (Round.mem_unmerged_iff.1 hUnmerged).1
          exact ⟨prime, hMem, Row.Within.refl prime, hSat⟩
        · rcases ih hLater hSat with
            ⟨merged, hMem, hWithin, hMerged⟩
          rcases Round.mem_merged_iff.1 hMem with
            ⟨a, ha, b, hb, hMerge⟩
          rw [Row.satisfiedBy_of_merge hMerge,
            Bool.or_eq_true] at hMerged
          rcases hMerged with hSatA | hSatB
          · exact ⟨a, ha,
              (Row.left_within_of_merge hMerge).trans
                hWithin, hSatA⟩
          · exact ⟨b, hb,
              (Row.right_within_of_merge hMerge).trans
                hWithin, hSatB⟩
  · intro hGiven
    rcases hGiven with ⟨row, _, hWithin, hSat⟩
    exact hWithin assignment hSat

/- A prime is made of rows of the start. -/
theorem exists_within_of_mem_primes
    {config : Config}
    {working : List Row}
    {prime : Row}
    (hPrime : prime ∈ primesOf (rounds config working)) :
    ∃ row ∈ working, row.Within prime := by
  rcases prime.exists_satisfiedBy with ⟨assignment, hSat⟩
  rcases (satisfiedBy_prime_iff hPrime assignment).1 hSat
    with ⟨row, hRow, hWithin, _⟩
  exact ⟨row, hRow, hWithin⟩

------------------------------------------------------------
-- Reducing a Table
------------------------------------------------------------

namespace Table

theorem reduce_eq_ok_iff
    {config : Config}
    {table : Table}
    {primes : RowSet} :
    table.reduce config = .ok primes ↔
      table.isEmpty = false ∧
        primes =
          primesOf (rounds config table.rows.toList) := by
  unfold reduce reduction
  cases h : table.isEmpty with
  | true => simp [Except.map]
  | false => simp [Except.map, eq_comm]

theorem reduce_eq_ok
    (config : Config)
    {table : Table}
    (hRows : table.isEmpty = false) :
    table.reduce config =
      .ok (primesOf (rounds config table.rows.toList)) :=
  reduce_eq_ok_iff.2 ⟨hRows, rfl⟩

theorem arity_of_mem_reduce
    {config : Config}
    {table : Table}
    {primes : RowSet}
    (h : table.reduce config = .ok primes)
    {prime : Row}
    (hPrime : prime ∈ primes) :
    prime.arity = table.arity := by
  rcases (reduce_eq_ok_iff.1 h) with ⟨_, rfl⟩
  rcases prime.exists_satisfiedBy with ⟨assignment, hSat⟩
  rcases (satisfiedBy_prime_iff hPrime assignment).1 hSat
    with ⟨row, hRow, hWithin, _⟩
  rw [← Row.arity_eq_of_within hWithin,
    table.row_arity row hRow]

/- Every row lies inside some prime, so there is one. -/
theorem isEmpty_eq_false_of_reduce
    {config : Config}
    {table : Table}
    {primes : RowSet}
    (h : table.reduce config = .ok primes) :
    primes.isEmpty = false := by
  rcases reduce_eq_ok_iff.1 h with ⟨hRows, rfl⟩
  rcases OrderedSet.exists_first?_eq_some hRows with
    ⟨row, hRow, _⟩
  rcases exists_prime_of_mem config hRow with
    ⟨prime, hPrime, _⟩
  exact OrderedSet.isEmpty_eq_false_of_mem hPrime

/- The primes stand for the function of the table. -/
theorem holds_iff_exists_prime
    {config : Config}
    {table : Table}
    {primes : RowSet}
    (h : table.reduce config = .ok primes)
    (assignment : List Bool) :
    table.Holds assignment ↔
      ∃ prime ∈ primes,
        prime.satisfiedBy assignment = true := by
  rcases (reduce_eq_ok_iff.1 h) with ⟨_, rfl⟩
  constructor
  · intro hGiven
    rcases hGiven with ⟨row, hRow, hSat⟩
    rcases exists_prime_of_mem config hRow with
      ⟨prime, hPrime, hWithin⟩
    exact ⟨prime, hPrime, hWithin assignment hSat⟩
  · intro hGiven
    rcases hGiven with ⟨prime, hPrime, hSat⟩
    rcases (satisfiedBy_prime_iff hPrime assignment).1 hSat
      with ⟨row, hRow, _, hRowSat⟩
    exact ⟨row, hRow, hRowSat⟩

/-
  Reducing a table loses no row and gains no assignment. Each
  row lies inside some prime. A prime is over the variables of
  the table, and it stands for just what the rows inside it
  stand for together.
-/
theorem exists_reduce_conserving
    (config : Config)
    {table : Table}
    (hRows : table.isEmpty = false) :
    ∃ primes, table.reduce config = .ok primes ∧
      (∀ row ∈ table.rows,
        ∃ prime ∈ primes, row.Within prime) ∧
      ∀ prime ∈ primes,
        prime.arity = table.arity ∧
          ∀ assignment,
            prime.satisfiedBy assignment = true ↔
              ∃ row ∈ table.rows, row.Within prime ∧
                row.satisfiedBy assignment = true := by
  have hReduce := reduce_eq_ok config hRows
  refine ⟨_, hReduce, ?_, ?_⟩
  · intro row hRow
    exact exists_prime_of_mem config hRow
  · intro prime hPrime
    exact ⟨arity_of_mem_reduce hReduce hPrime,
      satisfiedBy_prime_iff hPrime⟩

/-
  Rows over more variables than a word has digits. Two of them
  merge into a row that a third one contains.
-/
def wide : Table where
  arity := 65
  rows :=
    OrderedSet.ofList
      [⟨.zero :: List.replicate 64 .one⟩,
        ⟨.one :: List.replicate 64 .one⟩,
        ⟨.dontCare :: .one :: List.replicate 63 .dontCare⟩]
  arity_pos := Nat.succ_pos 64
  row_arity := by decide +kernel

theorem exists_reduce_wide_conserving :
    wide.isEmpty = false ∧
      ∃ primes, wide.reduce {} = .ok primes ∧
        (∀ row ∈ wide.rows,
          ∃ prime ∈ primes, row.Within prime) ∧
        ∀ prime ∈ primes,
          prime.arity = wide.arity ∧
            ∀ assignment,
              prime.satisfiedBy assignment = true ↔
                ∃ row ∈ wide.rows, row.Within prime ∧
                  row.satisfiedBy assignment = true := by
  have hRows : wide.isEmpty = false := by decide +kernel
  exact ⟨hRows, exists_reduce_conserving {} hRows⟩

end Table

end TwoLevel
