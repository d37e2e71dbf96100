import TwoLevel.Config
import TwoLevel.Reduction.Scan
import TwoLevel.Table

/-
  This file defines the reduction of a table to its prime
  implicants. In every round all mergeable pairs of rows are
  merged. The rows that took part in no merge are prime, and
  the merged rows are the next round's. Merging drops a
  demand, so the rounds come to an end.

  Key definitions include:
    * `Round`
    * `Round.ofRows`
    * `rounds`
    * `primesOf`
    * `gainsOf`
    * `Table.reduction`
    * `Table.reduce`

  Main theorems:
    * `merge_of_mem_merged`
    * `height_merged_lt`
    * `mem_primesOf_iff`
-/

namespace TwoLevel

------------------------------------------------------------
-- Rounds
------------------------------------------------------------

/- One round over a list of rows, and what it found out. -/
structure Round where
  working : List Row
  gathered : Bool
  scan : Scan
  deriving DecidableEq

namespace Round

/- Run a round in the way that the settings ask for. -/
def ofRows
    (config : Config)
    (working : List Row) : Round :=
  if config.gathers working.length then
    { working
      gathered := true
      scan := Scan.collect working.length (pairings working) }
  else
    { working
      gathered := false
      scan := Scan.ofRows working }

/- The rows of the next round. -/
def merged
    (round : Round) : RowSet :=
  round.scan.merged

/- The rows that took part in no merge. -/
def unmerged
    (round : Round) : List Row :=
  round.scan.unused round.working

theorem merge_of_mem_merged
    {config : Config}
    {working : List Row}
    {c : Row}
    (h : c ∈ (ofRows config working).merged) :
    ∃ a ∈ working, ∃ b ∈ working,
      a.merge b = some c := by
  unfold ofRows merged at h
  split at h
  · rcases Scan.mem_merged_collect_iff.1 h with
      ⟨pairing, hPairing, rfl⟩
    exact mem_rows_of_mem_pairings hPairing
  · rcases Scan.mem_merged_ofRows_iff.1 h with
      ⟨a, b, hab, hc⟩
    exact ⟨a, hab.subset (by simp), b,
      hab.subset (by simp), hc⟩

end Round

------------------------------------------------------------
-- Termination
------------------------------------------------------------

/-
  One more than the largest number of demands of a row, or
  zero if there is no row.
-/
def height
    (rows : List Row) : Nat :=
  rows.foldr (fun row h => max (row.literalCount + 1) h) 0

theorem lt_height_of_mem
    {rows : List Row}
    {row : Row}
    (h : row ∈ rows) :
    row.literalCount < height rows := by
  induction rows with
  | nil => cases h
  | cons first rows ih =>
      simp only [height, List.foldr_cons]
      rcases List.mem_cons.1 h with rfl | h
      · omega
      · have := ih h
        unfold height at this
        omega

theorem height_le_of_forall
    {rows : List Row}
    {bound : Nat}
    (h : ∀ row ∈ rows, row.literalCount < bound) :
    height rows ≤ bound := by
  induction rows with
  | nil => exact Nat.zero_le bound
  | cons first rows ih =>
      have hFirst := h first List.mem_cons_self
      have hRest := ih (fun row hRow =>
        h row (List.mem_cons_of_mem first hRow))
      simp only [height, List.foldr_cons]
      unfold height at hRest
      omega

/- The rows of the next round have fewer demands. -/
theorem height_merged_lt
    (config : Config)
    (first : Row)
    (rest : List Row) :
    height
        (Round.ofRows config
          (first :: rest)).merged.toList <
      height (first :: rest) := by
  have hPos : first.literalCount < height (first :: rest) :=
    lt_height_of_mem List.mem_cons_self
  have hLe :
      height
          (Round.ofRows config
            (first :: rest)).merged.toList ≤
        height (first :: rest) - 1 := by
    apply height_le_of_forall
    intro c hc
    rcases Round.merge_of_mem_merged hc with
      ⟨a, ha, b, _, hab⟩
    have hLit := (Row.literalCount_of_merge hab).1
    have := lt_height_of_mem ha
    omega
  omega

------------------------------------------------------------
-- Reduction
------------------------------------------------------------

/- The rounds from a list of rows on, until none is left. -/
def rounds
    (config : Config) : List Row → List Round
  | [] => []
  | first :: rest =>
      let round := Round.ofRows config (first :: rest)
      round :: rounds config round.merged.toList
  termination_by working => height working
  decreasing_by exact height_merged_lt config first rest

/- The rows that are prime after one more round. -/
def Round.extendPrimes
    (primes : RowSet)
    (round : Round) : RowSet :=
  primes ∪ OrderedSet.ofList round.unmerged

/- The rows that some round leaves unmerged. -/
def primesOf
    (rounds : List Round) : RowSet :=
  rounds.foldl Round.extendPrimes ∅

private theorem mem_foldl_extendPrimes_iff
    {rounds : List Round}
    {primes : RowSet}
    {row : Row} :
    row ∈ rounds.foldl Round.extendPrimes primes ↔
      row ∈ primes ∨
        ∃ round ∈ rounds, row ∈ round.unmerged := by
  induction rounds generalizing primes with
  | nil => simp
  | cons round rounds ih =>
      rw [List.foldl_cons, ih, Round.extendPrimes,
        OrderedSet.mem_union_iff, OrderedSet.mem_ofList_iff]
      simp [or_assoc]

/- A row is prime when some round leaves it unmerged. -/
theorem mem_primesOf_iff
    {rounds : List Round}
    {row : Row} :
    row ∈ primesOf rounds ↔
      ∃ round ∈ rounds, row ∈ round.unmerged := by
  rw [primesOf, mem_foldl_extendPrimes_iff]
  simp

/- The number of rows that each round adds to the primes. -/
def gainsOf
    (primes : RowSet) : List Round → List Nat
  | [] => []
  | round :: rounds =>
      let after := round.extendPrimes primes
      (after.size - primes.size) :: gainsOf after rounds

namespace Table

/- The rounds that reduce a table. -/
def reduction
    (config : Config)
    (table : Table) : Except Failure (List Round) :=
  if table.isEmpty then
    .error .emptyTable
  else
    .ok (rounds config table.rows.toList)

/- The prime implicants of a table. -/
def reduce
    (config : Config)
    (table : Table) : Except Failure RowSet :=
  (table.reduction config).map primesOf

end Table

end TwoLevel
