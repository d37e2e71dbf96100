import TwoLevel.Proofs.Reduction.Rounds

/-
  This file settles when reducing twice is reducing once. A
  set of rows comes out of the rounds unchanged exactly when
  no two of its rows merge.

  Primes of rows with equally many don't-cares do not merge:
  two of one size were left over by the same round, which
  compared them. Rows of different sizes give no such promise.
  A row that finds no partner is prime at once, and a partner
  that a later round makes comes too late for it.

  Key definitions include:
    * `MergeFree`

  Main theorems:
    * `primesOf_rounds_eq_iff`
    * `dontCares_eq_of_mem_working`
    * `mergeFree_primesOf_rounds`
    * `exists_reduce_eq_rows_iff`
    * `reduce_reduce_eq_iff`
-/

namespace TwoLevel

/- No two of the rows merge. -/
def MergeFree
    (rows : List Row) : Prop :=
  ∀ a ∈ rows, ∀ b ∈ rows, a.merge b = none

------------------------------------------------------------
-- Rows that the Rounds Leave Alone
------------------------------------------------------------

section FixedPoints

variable {config : Config}

theorem Round.merged_eq_empty_of_mergeFree
    {working : List Row}
    (h : MergeFree working) :
    (Round.ofRows config working).merged = ∅ := by
  ext c
  rw [Round.mem_merged_iff]
  constructor
  · intro hGiven
    rcases hGiven with ⟨a, ha, b, hb, hMerge⟩
    rw [h a ha b hb] at hMerge
    cases hMerge
  · intro hc
    exact absurd hc (OrderedSet.not_mem_empty c)

theorem Round.mergeFree_of_merged_eq_nil
    {working : List Row}
    (h : (Round.ofRows config working).merged.toList = []) :
    MergeFree working := by
  intro a ha b hb
  cases hMerge : a.merge b with
  | none => rfl
  | some c =>
      have hMem :
          c ∈ (Round.ofRows config working).merged.toList :=
        Round.mem_merged_iff.2 ⟨a, ha, b, hb, hMerge⟩
      rw [h] at hMem
      cases hMem

theorem primesOf_rounds_of_mergeFree
    {rows : RowSet}
    (h : MergeFree rows.toList) :
    primesOf (rounds config rows.toList) = rows := by
  ext row
  rw [mem_primesOf_rounds_iff, Round.mem_unmerged_iff,
    Round.merged_eq_empty_of_mergeFree h]
  constructor
  · intro hGiven
    rcases hGiven with ⟨hRow, _⟩ | hLater
    · exact hRow
    · simp [rounds, primesOf] at hLater
  · intro hRow
    exact Or.inl ⟨hRow, fun other hOther =>
      h row hRow other hOther⟩

/-
  By induction on the don't-cares of a row. Were a row merged
  and prime nonetheless, it would be made by a later round,
  out of two rows with fewer don't-cares that merge.
-/
theorem mergeFree_of_primesOf_rounds_eq
    {rows : RowSet}
    (h : primesOf (rounds config rows.toList) = rows) :
    MergeFree rows.toList := by
  intro a ha b hb
  induction hCount : a.dontCares using Nat.strongRecOn
      generalizing a b with
  | ind count ih =>
      have hPrime :
          a ∈ primesOf (rounds config rows.toList) := by
        rw [h]
        exact ha
      rcases mem_primesOf_rounds_iff.1 hPrime with
        hUnmerged | hLater
      · exact (Round.mem_unmerged_iff.1 hUnmerged).2 b hb
      · rcases exists_within_of_mem_primes hLater with
          ⟨merged, hMem, hWithin⟩
        rcases Round.mem_merged_iff.1 hMem with
          ⟨c, hc, d, hd, hMerge⟩
        have hFewer := (Row.dontCares_of_merge hMerge).1
        have hLe := Row.dontCares_le_of_within hWithin
        rw [ih c.dontCares (by omega) c hc d hd rfl] at hMerge
        cases hMerge

/- The rounds change a set of rows unless none of them merge. -/
theorem primesOf_rounds_eq_iff
    {rows : RowSet} :
    primesOf (rounds config rows.toList) = rows ↔
      MergeFree rows.toList := by
  constructor
  · exact mergeFree_of_primesOf_rounds_eq
  · exact primesOf_rounds_of_mergeFree

/- No row merges with itself, so it takes two different ones. -/
theorem mergeFree_iff
    {rows : List Row} :
    MergeFree rows ↔
      ∀ a ∈ rows, ∀ b ∈ rows, a ≠ b →
        a.mergeable b = false := by
  constructor
  · intro h a ha b hb _
    rw [Row.mergeable, h a ha b hb]
    rfl
  · intro h a ha b hb
    by_cases hab : a = b
    · rw [hab, Row.merge_self]
    · have hApart := h a ha b hb hab
      rw [Row.mergeable, Option.isSome_eq_false_iff,
        Option.isNone_iff_eq_none] at hApart
      exact hApart

------------------------------------------------------------
-- Rows of One Level
------------------------------------------------------------

section Levels

variable {working : List Row}
variable {level : Nat}

/- Rows of one level merge into rows of the next. -/
theorem dontCares_eq_of_mem_working
    (hLevel : ∀ row ∈ working, row.dontCares = level)
    {k : Nat}
    {round : Round}
    (hRound : (rounds config working)[k]? = some round) :
    ∀ row ∈ round.working, row.dontCares = level + k := by
  refine holds_of_mem_working
    (fun k row => row.dontCares = level + k) ?_ hLevel hRound
  intro k a b c ha _ hab
  have hCount := (Row.dontCares_of_merge hab).1
  show c.dontCares = level + (k + 1)
  omega

/- Rows that merge are of one level. -/
theorem merge_eq_none_of_dontCares_ne
    {a b : Row}
    (h : a.dontCares ≠ b.dontCares) :
    a.merge b = none := by
  cases hMerge : a.merge b with
  | none => rfl
  | some c =>
      have hCounts := Row.dontCares_of_merge hMerge
      omega

/-
  Two primes of one round did not merge there, and those of
  different rounds differ in level.
-/
theorem mergeFree_primesOf_rounds
    (hLevel : ∀ row ∈ working, row.dontCares = level) :
    MergeFree (primesOf (rounds config working)).toList := by
  intro a ha b hb
  rcases mem_primesOf_rounds_iff_exists_getElem?.1 ha with
    ⟨i, left, hLeft, hMemA, hUnmerged⟩
  rcases mem_primesOf_rounds_iff_exists_getElem?.1 hb with
    ⟨j, right, hRight, hMemB, _⟩
  by_cases hij : i = j
  · subst hij
    rw [hLeft, Option.some.injEq] at hRight
    rw [← hRight] at hMemB
    exact hUnmerged b hMemB
  · have hCountA :=
      dontCares_eq_of_mem_working hLevel hLeft a hMemA
    have hCountB :=
      dontCares_eq_of_mem_working hLevel hRight b hMemB
    exact merge_eq_none_of_dontCares_ne (by omega)

end Levels

end FixedPoints

------------------------------------------------------------
-- Tables that are Reduced Already
------------------------------------------------------------

namespace Table

/-
  Reducing a table gives its rows back exactly when no two of
  them merge. A row that merged may well be prime after all,
  made once more by a later round, but not every such row is.
-/
theorem exists_reduce_eq_rows_iff
    (config : Config)
    {table : Table}
    (hRows : table.isEmpty = false) :
    ∃ primes, table.reduce config = .ok primes ∧
      (primes = table.rows ↔
        ∀ a ∈ table.rows, ∀ b ∈ table.rows, a ≠ b →
          a.mergeable b = false) := by
  refine ⟨primesOf (rounds config table.rows.toList),
    reduce_eq_ok config hRows, ?_⟩
  calc primesOf (rounds config table.rows.toList) = table.rows
    _ ↔ MergeFree table.rows.toList := primesOf_rounds_eq_iff
    _ ↔ _ := mergeFree_iff

/-
  Rows of which one is dropped and made once more: the first
  two merge into the third, which merges with the fourth.
-/
def remade : Table where
  arity := 2
  rows :=
    OrderedSet.ofList
      [⟨[.zero, .zero]⟩, ⟨[.zero, .one]⟩,
        ⟨[.zero, .dontCare]⟩, ⟨[.one, .dontCare]⟩]
  arity_pos := Nat.two_pos
  row_arity := by decide +kernel

example :
    remade.reduce {} =
      .ok (OrderedSet.ofList
        [⟨[.zero, .dontCare]⟩, ⟨[.dontCare, .dontCare]⟩]) := by
  decide +kernel

theorem exists_reduce_remade_eq_rows_iff :
    remade.isEmpty = false ∧
      ∃ primes, remade.reduce {} = .ok primes ∧
        (primes = remade.rows ↔
          ∀ a ∈ remade.rows, ∀ b ∈ remade.rows, a ≠ b →
            a.mergeable b = false) := by
  have hRows : remade.isEmpty = false := by decide +kernel
  exact ⟨hRows, exists_reduce_eq_rows_iff {} hRows⟩

end Table

------------------------------------------------------------
-- Reducing Twice
------------------------------------------------------------

namespace Table

/- The primes of a table can be listed as a table again. -/
theorem exists_ofRows_primes_eq_ok
    {config : Config}
    {table : Table}
    {primes : RowSet}
    (h : table.reduce config = .ok primes) :
    ∃ listed,
      Table.ofRows table.arity primes.toList = .ok listed ∧
        listed.rows = primes := by
  rcases exists_ofRows_eq_ok table.arity_pos
      (fun _ hPrime => arity_of_mem_reduce h hPrime) with
    ⟨listed, hListed, _, hRows⟩
  exact ⟨listed, hListed,
    hRows.trans (OrderedSet.ofList_toList primes)⟩

/-
  Reducing the primes of a table gives them back exactly when
  no two of them merge, and so for every table whose rows have
  equally many don't-cares.
-/
theorem reduce_reduce_eq_iff
    (config config' : Config)
    {table : Table}
    (hRows : table.isEmpty = false) :
    ∃ primes listed again,
      table.reduce config = .ok primes ∧
      Table.ofRows table.arity primes.toList = .ok listed ∧
      listed.reduce config' = .ok again ∧
      (again = primes ↔ MergeFree primes.toList) ∧
      ∀ level,
        (∀ row ∈ table.rows, row.dontCares = level) →
        again = primes := by
  have hReduce := reduce_eq_ok config hRows
  rcases exists_ofRows_primes_eq_ok hReduce with
    ⟨listed, hListed, hPrimes⟩
  have hListedRows : listed.isEmpty = false := by
    rw [isEmpty, hPrimes]
    exact isEmpty_eq_false_of_reduce hReduce
  have hAgain := reduce_eq_ok config' hListedRows
  rw [hPrimes] at hAgain
  refine ⟨_, listed, _, hReduce, hListed, hAgain,
    primesOf_rounds_eq_iff, ?_⟩
  intro level hLevel
  exact primesOf_rounds_of_mergeFree
    (mergeFree_primesOf_rounds hLevel)

/- Two rows with one don't-care each. -/
def halves : Table where
  arity := 2
  rows :=
    OrderedSet.ofList
      [⟨[.zero, .dontCare]⟩, ⟨[.one, .dontCare]⟩]
  arity_pos := Nat.two_pos
  row_arity := by decide +kernel

theorem reduce_reduce_halves_eq :
    halves.isEmpty = false ∧
      (∀ row ∈ halves.rows, row.dontCares = 1) ∧
      ∃ primes listed again,
        halves.reduce {} = .ok primes ∧
        Table.ofRows halves.arity primes.toList =
          .ok listed ∧
        listed.reduce {} = .ok again ∧
        again = primes := by
  have hRows : halves.isEmpty = false := by decide +kernel
  have hLevel : ∀ row ∈ halves.rows, row.dontCares = 1 := by
    decide +kernel
  rcases reduce_reduce_eq_iff {} {} hRows with
    ⟨primes, listed, again, hPrimes, hListed, hAgain, _,
      hUniform⟩
  exact ⟨hRows, hLevel, primes, listed, again, hPrimes,
    hListed, hAgain, hUniform 1 hLevel⟩

/- Two assignments, and a row that takes up the other two. -/
def mixedLevels : Table where
  arity := 2
  rows :=
    OrderedSet.ofList
      [⟨[.zero, .zero]⟩, ⟨[.zero, .one]⟩,
        ⟨[.one, .dontCare]⟩]
  arity_pos := Nat.two_pos
  row_arity := by decide +kernel

/-
  The row of the other two finds no partner in the first round
  and meets its opposite when the primes are reduced again.
-/
theorem reduce_reduce_mixedLevels_ne :
    ∃ primes listed again,
      mixedLevels.reduce {} = .ok primes ∧
      Table.ofRows mixedLevels.arity primes.toList =
        .ok listed ∧
      listed.reduce {} = .ok again ∧
      again ≠ primes := by
  have hReduce : mixedLevels.reduce {} = .ok halves.rows := by
    decide +kernel
  rcases exists_ofRows_primes_eq_ok hReduce with
    ⟨listed, hListed, hPrimes⟩
  have hAgain :
      listed.reduce {} =
        .ok (OrderedSet.ofList [⟨[.dontCare, .dontCare]⟩]) :=
    reduce_eq_ok_iff.2
      ⟨by rw [isEmpty, hPrimes]; decide +kernel,
        by rw [hPrimes]; decide +kernel⟩
  exact ⟨_, listed, _, hReduce, hListed, hAgain,
    by decide +kernel⟩

end Table

end TwoLevel
