import TwoLevel.Proofs.Row.Merging
import TwoLevel.Reduction.Basic

/-
  This file says what one comparison of all pairs of rows
  finds out, however it goes about it: every row is compared
  with every row. Neither the order in which merges are
  recorded nor a merge recorded twice makes a difference, so
  both kinds of rounds give the same result.

  Key definitions include:
    * `Scan.exhaustive`

  Main theorems:
    * `ofRows_eq_exhaustive`
    * `mem_pairings_iff`
    * `collect_eq_exhaustive`
    * `scan_ofRows`
    * `mem_merged_iff`
    * `mem_unmerged_iff`
-/

namespace TwoLevel

namespace Row

theorem mergeable_comm
    (a b : Row) :
    a.mergeable b = b.mergeable a := by
  rw [mergeable, merge_comm, mergeable]

@[simp] theorem mergeable_self
    (row : Row) :
    row.mergeable row = false := by
  rw [mergeable, merge_self]
  rfl

theorem mergeable_iff
    {a b : Row} :
    a.mergeable b = true ↔ ∃ c, a.merge b = some c :=
  Option.isSome_iff_exists

end Row

namespace Scan

------------------------------------------------------------
-- Every Row with Every Row
------------------------------------------------------------

/- What comparing every row with every row finds out. -/
def exhaustive
    (rows : List Row) : Scan where
  merged :=
    OrderedSet.ofList
      (rows.flatMap (fun a => rows.filterMap a.merge))
  used := rows.map (fun a => rows.any a.mergeable)

theorem mem_merged_exhaustive_iff
    {rows : List Row}
    {c : Row} :
    c ∈ (exhaustive rows).merged ↔
      ∃ a ∈ rows, ∃ b ∈ rows, a.merge b = some c := by
  rw [exhaustive, OrderedSet.mem_ofList_iff]
  simp only [List.mem_flatMap, List.mem_filterMap]

private theorem sublist_of_mem_of_ne
    {rows : List Row}
    {a b : Row}
    (ha : a ∈ rows)
    (hb : b ∈ rows)
    (hNe : a ≠ b) :
    [a, b].Sublist rows ∨ [b, a].Sublist rows := by
  induction rows with
  | nil => cases ha
  | cons row rows ih =>
      rcases List.mem_cons.1 ha with rfl | haRest
      · rcases List.mem_cons.1 hb with rfl | hbRest
        · exact absurd rfl hNe
        · have hSingle := List.singleton_sublist.2 hbRest
          exact Or.inl (hSingle.cons_cons a)
      · rcases List.mem_cons.1 hb with rfl | hbRest
        · have hSingle := List.singleton_sublist.2 haRest
          exact Or.inr (hSingle.cons_cons b)
        · rcases ih haRest hbRest with h | h
          · exact Or.inl (h.cons row)
          · exact Or.inr (h.cons row)

theorem merged_ofRows
    (rows : List Row) :
    (ofRows rows).merged = (exhaustive rows).merged := by
  ext c
  rw [mem_merged_ofRows_iff, mem_merged_exhaustive_iff]
  constructor
  · intro hGiven
    rcases hGiven with ⟨a, b, hab, hc⟩
    exact ⟨a, hab.subset (by simp), b,
      hab.subset (by simp), hc⟩
  · intro hGiven
    rcases hGiven with ⟨a, ha, b, hb, hc⟩
    have hNe : a ≠ b := by
      intro hEq
      rw [hEq, Row.merge_self] at hc
      cases hc
    rcases sublist_of_mem_of_ne ha hb hNe with h | h
    · exact ⟨a, b, h, hc⟩
    · rw [Row.merge_comm] at hc
      exact ⟨b, a, h, hc⟩

private theorem used_sweep
    (rows : List Row) :
    (sweep rows).2 =
      rows.map (fun a => rows.any a.mergeable) := by
  induction rows with
  | nil => rfl
  | cons row rows ih =>
      simp only [sweep, ih, List.map_map, List.map_cons,
        List.any_cons, Row.mergeable_self, Bool.false_or,
        List.any_map, List.zipWith_map, List.zipWith_self]
      congr 1
      apply List.map_congr_left
      intro other _
      rw [Row.mergeable_comm]
      rfl

/- The ordered scan misses no pair. -/
theorem ofRows_eq_exhaustive
    (rows : List Row) :
    ofRows rows = exhaustive rows := by
  have hMerged := merged_ofRows rows
  have hUsed : (ofRows rows).used = (exhaustive rows).used :=
    used_sweep rows
  rw [Scan.mk.injEq]
  exact ⟨hMerged, hUsed⟩

end Scan

------------------------------------------------------------
-- Gathered Merges
------------------------------------------------------------

/- The merges of one row, by the position of the other. -/
theorem mem_pairingsWith_iff
    {row : Row}
    {left right : Nat}
    {rows : List Row}
    {pairing : Pairing} :
    pairing ∈ pairingsWith row left right rows ↔
      pairing.left = left ∧
        ∃ k other, rows[k]? = some other ∧
          pairing.right = right + k ∧
          row.merge other = some pairing.merged := by
  induction rows generalizing right with
  | nil => simp [pairingsWith]
  | cons first rest ih =>
      constructor
      · intro h
        unfold pairingsWith at h
        split at h
        · rename_i merged hMerged
          rcases List.mem_cons.1 h with rfl | hRest
          · exact ⟨rfl, 0, first, rfl, rfl, hMerged⟩
          · rcases ih.1 hRest with
              ⟨hLeft, k, other, hk, hRight, hMerge⟩
            exact ⟨hLeft, k + 1, other, hk, by omega,
              hMerge⟩
        · rcases ih.1 h with
            ⟨hLeft, k, other, hk, hRight, hMerge⟩
          exact ⟨hLeft, k + 1, other, hk, by omega, hMerge⟩
      · intro hGiven
        rcases hGiven with
          ⟨hLeft, k, other, hk, hRight, hMerge⟩
        unfold pairingsWith
        cases k with
        | zero =>
            cases hk
            have hPairing :
                pairing =
                  { left, right,
                    merged := pairing.merged } := by
              rw [Pairing.mk.injEq]
              exact ⟨hLeft, hRight, rfl⟩
            rw [hMerge, hPairing]
            exact List.mem_cons_self
        | succ k =>
            have hRest :
                pairing ∈
                  pairingsWith row left (right + 1) rest :=
              ih.2
                ⟨hLeft, k, other, hk, by omega, hMerge⟩
            split
            · exact List.mem_cons_of_mem _ hRest
            · exact hRest

/- The gathered merges, by the positions they came from. -/
theorem mem_pairingsFrom_iff
    {start : Nat}
    {rows : List Row}
    {pairing : Pairing} :
    pairing ∈ pairingsFrom start rows ↔
      ∃ i j a b, i < j ∧
        rows[i]? = some a ∧ rows[j]? = some b ∧
        pairing.left = start + i ∧
        pairing.right = start + j ∧
        a.merge b = some pairing.merged := by
  induction rows generalizing start with
  | nil => simp [pairingsFrom]
  | cons row rows ih =>
      rw [pairingsFrom, List.mem_append,
        mem_pairingsWith_iff, ih]
      constructor
      · intro hGiven
        rcases hGiven with
          ⟨hLeft, k, other, hk, hRight, hMerge⟩ |
          ⟨i, j, a, b, hij, ha, hb, hLeft, hRight, hMerge⟩
        · exact ⟨0, k + 1, row, other, by omega, rfl, hk,
            hLeft, by omega, hMerge⟩
        · exact ⟨i + 1, j + 1, a, b, by omega, ha, hb,
            by omega, by omega, hMerge⟩
      · intro hGiven
        rcases hGiven with
          ⟨i, j, a, b, hij, ha, hb, hLeft, hRight, hMerge⟩
        cases j with
        | zero => omega
        | succ j =>
            cases i with
            | zero =>
                cases ha
                exact Or.inl ⟨hLeft, j, b, hb, by omega,
                  hMerge⟩
            | succ i =>
                exact Or.inr ⟨i, j, a, b, by omega, ha, hb,
                  by omega, by omega, hMerge⟩

theorem mem_pairings_iff
    {rows : List Row}
    {pairing : Pairing} :
    pairing ∈ pairings rows ↔
      ∃ a b, pairing.left < pairing.right ∧
        rows[pairing.left]? = some a ∧
        rows[pairing.right]? = some b ∧
        a.merge b = some pairing.merged := by
  rw [pairings, mem_pairingsFrom_iff]
  simp only [Nat.zero_add]
  constructor
  · intro hGiven
    rcases hGiven with
      ⟨i, j, a, b, hij, ha, hb, rfl, rfl, hMerge⟩
    exact ⟨a, b, hij, ha, hb, hMerge⟩
  · intro hGiven
    rcases hGiven with ⟨a, b, hij, ha, hb, hMerge⟩
    exact ⟨_, _, a, b, hij, ha, hb, rfl, rfl, hMerge⟩

private theorem exists_mem_pairings
    {rows : List Row}
    {i j : Nat}
    {a b c : Row}
    (ha : rows[i]? = some a)
    (hb : rows[j]? = some b)
    (hMerge : a.merge b = some c) :
    ∃ pairing ∈ pairings rows, pairing.merged = c ∧
      (pairing.left = i ∨ pairing.right = i) := by
  have hNe : i ≠ j := by
    intro hEq
    subst hEq
    rw [ha] at hb
    cases hb
    rw [Row.merge_self] at hMerge
    cases hMerge
  rcases Nat.lt_or_gt_of_ne hNe with hij | hji
  · refine ⟨⟨i, j, c⟩, ?_, rfl, Or.inl rfl⟩
    exact mem_pairings_iff.2 ⟨a, b, hij, ha, hb, hMerge⟩
  · rw [Row.merge_comm] at hMerge
    refine ⟨⟨j, i, c⟩, ?_, rfl, Or.inr rfl⟩
    exact mem_pairings_iff.2 ⟨b, a, hji, hb, ha, hMerge⟩

namespace Scan

private theorem getElem?_setIfInBounds_true
    (used : Array Bool)
    (position i : Nat) :
    (used.setIfInBounds position true)[i]? =
      used[i]?.map (fun flag => flag || position == i) := by
  rw [Array.getElem?_setIfInBounds]
  by_cases h : position = i
  · subst h
    by_cases hLt : position < used.size
    · simp [hLt]
    · simp [hLt]
  · have hBeq : (position == i) = false := by
      simpa using h
    simp [h, hBeq]

private theorem getElem?_mark
    (used : Array Bool)
    (pairing : Pairing)
    (i : Nat) :
    (mark used pairing)[i]? =
      used[i]?.map (fun flag => flag ||
        (pairing.left == i || pairing.right == i)) := by
  rw [mark, getElem?_setIfInBounds_true,
    getElem?_setIfInBounds_true, Option.map_map]
  congr 1
  funext flag
  exact Bool.or_assoc _ _ _

private theorem getElem?_foldl_mark
    (found : List Pairing)
    (used : Array Bool)
    (i : Nat) :
    (found.foldl mark used)[i]? =
      used[i]?.map (fun flag => flag ||
        found.any (fun pairing =>
          pairing.left == i || pairing.right == i)) := by
  induction found generalizing used with
  | nil => simp
  | cons pairing found ih =>
      rw [List.foldl_cons, ih, getElem?_mark,
        Option.map_map, List.any_cons]
      congr 1
      funext flag
      exact Bool.or_assoc _ _ _

private theorem any_touches_iff
    {rows : List Row}
    {found : List Pairing}
    (hFound :
      ∀ pairing, pairing ∈ found ↔ pairing ∈ pairings rows)
    {i : Nat}
    {row : Row}
    (hRow : rows[i]? = some row) :
    found.any (fun pairing =>
        pairing.left == i || pairing.right == i) =
      rows.any row.mergeable := by
  rw [Bool.eq_iff_iff, List.any_eq_true, List.any_eq_true]
  simp only [Bool.or_eq_true, beq_iff_eq, Row.mergeable_iff]
  constructor
  · intro hGiven
    rcases hGiven with ⟨pairing, hPairing, hi⟩
    rcases mem_pairings_iff.1 ((hFound pairing).1 hPairing)
      with ⟨a, b, _, ha, hb, hMerge⟩
    rcases hi with rfl | rfl
    · rw [hRow] at ha
      cases ha
      exact ⟨b, List.mem_of_getElem? hb, _, hMerge⟩
    · rw [hRow] at hb
      cases hb
      rw [Row.merge_comm] at hMerge
      exact ⟨a, List.mem_of_getElem? ha, _, hMerge⟩
  · intro hGiven
    rcases hGiven with ⟨other, hOther, c, hMerge⟩
    rcases List.getElem?_of_mem hOther with ⟨j, hj⟩
    rcases exists_mem_pairings hRow hj hMerge with
      ⟨pairing, hPairing, _, hi⟩
    exact ⟨pairing, (hFound pairing).2 hPairing, hi⟩

private theorem mem_merged_collect_of_pairings
    {rows : List Row}
    {found : List Pairing}
    (hFound :
      ∀ pairing, pairing ∈ found ↔ pairing ∈ pairings rows)
    {c : Row} :
    (∃ pairing ∈ found, pairing.merged = c) ↔
      ∃ a ∈ rows, ∃ b ∈ rows, a.merge b = some c := by
  constructor
  · intro hGiven
    rcases hGiven with ⟨pairing, hPairing, rfl⟩
    rcases mem_pairings_iff.1 ((hFound pairing).1 hPairing)
      with ⟨a, b, _, ha, hb, hMerge⟩
    exact ⟨a, List.mem_of_getElem? ha, b,
      List.mem_of_getElem? hb, hMerge⟩
  · intro hGiven
    rcases hGiven with ⟨a, ha, b, hb, hMerge⟩
    rcases List.getElem?_of_mem ha with ⟨i, hi⟩
    rcases List.getElem?_of_mem hb with ⟨j, hj⟩
    rcases exists_mem_pairings hi hj hMerge with
      ⟨pairing, hPairing, hc, _⟩
    exact ⟨pairing, (hFound pairing).2 hPairing, hc⟩

/-
  Whatever the order in which the merges of a list of rows
  arrive, and however often each does, they come to the same.
-/
theorem collect_eq_exhaustive
    {rows : List Row}
    {found : List Pairing}
    (hFound :
      ∀ pairing, pairing ∈ found ↔ pairing ∈ pairings rows) :
    collect rows.length found = exhaustive rows := by
  rw [Scan.mk.injEq]
  constructor
  · ext c
    exact mem_merged_collect_iff.trans
      ((mem_merged_collect_of_pairings hFound).trans
        mem_merged_exhaustive_iff.symm)
  · apply List.ext_getElem?
    intro i
    show
      (found.foldl mark
          (Array.replicate rows.length false)).toList[i]? =
        (rows.map (fun a => rows.any a.mergeable))[i]?
    rw [Array.getElem?_toList, getElem?_foldl_mark,
      List.getElem?_map]
    cases hRow : rows[i]? with
    | none =>
        have hLe := List.getElem?_eq_none_iff.1 hRow
        simp [hLe]
    | some row =>
        have hLt := (List.getElem?_eq_some_iff.1 hRow).1
        simp [hLt, any_touches_iff hFound hRow]

private theorem filterMap_zip_map
    (rows : List Row)
    (used : Row → Bool) :
    (rows.zip (rows.map used)).filterMap
        (fun (row, flag) => if flag then none else some row) =
      rows.filter (fun row => !used row) := by
  induction rows with
  | nil => rfl
  | cons row rows ih =>
      rw [List.map_cons, List.zip_cons_cons,
        List.filterMap_cons, ih, List.filter_cons]
      cases used row <;> rfl

theorem unused_exhaustive
    (rows : List Row) :
    (exhaustive rows).unused rows =
      rows.filter (fun row => !rows.any row.mergeable) :=
  filterMap_zip_map rows _

end Scan

namespace Round

@[simp] theorem working_ofRows
    (config : Config)
    (working : List Row) :
    (ofRows config working).working = working := by
  unfold ofRows
  split <;> rfl

/- Both kinds of rounds find out the same. -/
theorem scan_ofRows
    (config : Config)
    (working : List Row) :
    (ofRows config working).scan =
      Scan.exhaustive working := by
  unfold ofRows
  split
  · exact Scan.collect_eq_exhaustive (fun _ => Iff.rfl)
  · exact Scan.ofRows_eq_exhaustive working

/- The next round has the merges of all pairs. -/
theorem mem_merged_iff
    {config : Config}
    {working : List Row}
    {c : Row} :
    c ∈ (ofRows config working).merged ↔
      ∃ a ∈ working, ∃ b ∈ working, a.merge b = some c := by
  rw [merged, scan_ofRows, Scan.mem_merged_exhaustive_iff]

/- A row stays unmerged when it merges with no other. -/
theorem mem_unmerged_iff
    {config : Config}
    {working : List Row}
    {row : Row} :
    row ∈ (ofRows config working).unmerged ↔
      row ∈ working ∧
        ∀ other ∈ working, row.merge other = none := by
  rw [unmerged, scan_ofRows, working_ofRows,
    Scan.unused_exhaustive, List.mem_filter]
  simp [Row.mergeable]

end Round

end TwoLevel
