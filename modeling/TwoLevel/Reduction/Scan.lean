import TwoLevel.Row.Basic

/-
  This file defines what one comparison of all pairs of a list
  of rows finds out: the rows obtained by merging, and for
  each position whether its row took part in a merge.

  There are two ways to find it out. The scan records every
  merge as it is met. The gathering way first collects all
  merges with the positions they came from, and records them
  afterwards in the order in which they arrived.

  Key definitions include:
    * `Scan`
    * `Scan.sweep`
    * `Scan.ofRows`
    * `Pairing`
    * `pairings`
    * `Scan.collect`
    * `Scan.unused`

  Main theorems:
    * `mem_merged_ofRows_iff`
    * `mem_merged_collect_iff`
    * `mem_rows_of_mem_pairings`
-/

namespace TwoLevel

/- The merged rows, and the positions that were used. -/
structure Scan where
  merged : RowSet
  used : List Bool
  deriving DecidableEq

namespace Scan

------------------------------------------------------------
-- Scanning in Order
------------------------------------------------------------

/-
  Compare each row with all rows after it, and record what is
  found on the way back: the rows obtained, as often as they
  are obtained, and the positions used.
-/
def sweep : List Row → List Row × List Bool
  | [] => ([], [])
  | row :: rows =>
      let (merged, used) := sweep rows
      let found := rows.map row.merge
      (found.filterMap id ++ merged,
        found.any Option.isSome ::
          List.zipWith (· || ·)
            (found.map Option.isSome) used)

/- What a comparison of all pairs in order finds out. -/
def ofRows
    (rows : List Row) : Scan :=
  let (merged, used) := sweep rows
  { merged := OrderedSet.ofList merged, used }

private theorem mem_sweep_iff
    {rows : List Row}
    {c : Row} :
    c ∈ (sweep rows).1 ↔
      ∃ a b, [a, b].Sublist rows ∧
        a.merge b = some c := by
  induction rows with
  | nil => simp [sweep]
  | cons row rows ih =>
      simp only [sweep, List.mem_append, List.mem_filterMap,
        List.mem_map, id_eq, ih]
      constructor
      · rintro (⟨_, ⟨b, hb, rfl⟩, hc⟩ |
          ⟨a, b, hab, hc⟩)
        · refine ⟨row, b, ?_, hc⟩
          exact List.Sublist.cons_cons row
            (List.singleton_sublist.2 hb)
        · exact ⟨a, b, hab.cons row, hc⟩
      · rintro ⟨a, b, hab, hc⟩
        rcases List.sublist_cons_iff.1 hab with
          hab | ⟨tail, hTail, hb⟩
        · exact Or.inr ⟨a, b, hab, hc⟩
        · cases hTail
          exact Or.inl ⟨_,
            ⟨b, List.singleton_sublist.1 hb, rfl⟩, hc⟩

/- A row is found by merging two rows of the list in order. -/
theorem mem_merged_ofRows_iff
    {rows : List Row}
    {c : Row} :
    c ∈ (ofRows rows).merged ↔
      ∃ a b, [a, b].Sublist rows ∧
        a.merge b = some c := by
  rw [← mem_sweep_iff]
  exact OrderedSet.mem_ofList_iff

end Scan

------------------------------------------------------------
-- Gathering
------------------------------------------------------------

/- A merge, with the positions of the rows it came from. -/
structure Pairing where
  left : Nat
  right : Nat
  merged : Row
  deriving DecidableEq, Repr

/- The merges of one row with the rows from a position on. -/
def pairingsWith
    (row : Row)
    (left : Nat) : Nat → List Row → List Pairing
  | _, [] => []
  | right, other :: rest =>
      match row.merge other with
      | some merged =>
          { left, right, merged } ::
            pairingsWith row left (right + 1) rest
      | none => pairingsWith row left (right + 1) rest

/- The merges of rows whose first has the given position. -/
def pairingsFrom
    (start : Nat) : List Row → List Pairing
  | [] => []
  | row :: rows =>
      pairingsWith row start (start + 1) rows ++
        pairingsFrom (start + 1) rows

/- All merges of a list of rows. -/
def pairings
    (rows : List Row) : List Pairing :=
  pairingsFrom 0 rows

namespace Scan

/- Mark both positions of a merge as used. -/
def mark
    (used : Array Bool)
    (pairing : Pairing) : Array Bool :=
  (used.setIfInBounds pairing.left true).setIfInBounds
    pairing.right true

/-
  What merges among so many rows amount to, recorded in the
  order given.
-/
def collect
    (count : Nat)
    (found : List Pairing) : Scan where
  merged := OrderedSet.ofList (found.map Pairing.merged)
  used :=
    (found.foldl mark (Array.replicate count false)).toList

/- The order of the merges does not show in the rows. -/
theorem mem_merged_collect_iff
    {count : Nat}
    {found : List Pairing}
    {c : Row} :
    c ∈ (collect count found).merged ↔
      ∃ pairing ∈ found, pairing.merged = c := by
  simp [collect]

end Scan

private theorem mem_rows_of_mem_pairingsWith
    {row : Row}
    {left right : Nat}
    {rows : List Row}
    {pairing : Pairing}
    (h : pairing ∈ pairingsWith row left right rows) :
    ∃ b ∈ rows, row.merge b = some pairing.merged := by
  induction rows generalizing right with
  | nil => cases h
  | cons other rest ih =>
      unfold pairingsWith at h
      split at h
      · rename_i merged hMerged
        rcases List.mem_cons.1 h with rfl | h
        · exact ⟨other, List.mem_cons_self, hMerged⟩
        · rcases ih h with ⟨b, hb, hRow⟩
          exact ⟨b, List.mem_cons_of_mem other hb, hRow⟩
      · rcases ih h with ⟨b, hb, hRow⟩
        exact ⟨b, List.mem_cons_of_mem other hb, hRow⟩

/- Every merge that is gathered is one of two listed rows. -/
theorem mem_rows_of_mem_pairings
    {rows : List Row}
    {start : Nat}
    {pairing : Pairing}
    (h : pairing ∈ pairingsFrom start rows) :
    ∃ a ∈ rows, ∃ b ∈ rows,
      a.merge b = some pairing.merged := by
  induction rows generalizing start with
  | nil => cases h
  | cons row rows ih =>
      rcases List.mem_append.1 h with h | h
      · rcases mem_rows_of_mem_pairingsWith h with
          ⟨b, hb, hRow⟩
        exact ⟨row, List.mem_cons_self, b,
          List.mem_cons_of_mem row hb, hRow⟩
      · rcases ih h with ⟨a, ha, b, hb, hab⟩
        exact ⟨a, List.mem_cons_of_mem row ha, b,
          List.mem_cons_of_mem row hb, hab⟩

/- The rows whose position was not used. -/
def Scan.unused
    (scan : Scan)
    (rows : List Row) : List Row :=
  (rows.zip scan.used).filterMap
    (fun (row, used) => if used then none else some row)

end TwoLevel
