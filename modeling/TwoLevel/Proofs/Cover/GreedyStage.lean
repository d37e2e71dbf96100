import TwoLevel.Proofs.Cover.GreedyRule
import TwoLevel.Proofs.OrderedSet.Cardinality

/-
  This file shows that the second stage of the selection
  follows the greedy rule. The stage looks only at lines that
  are still candidates, and counts live columns. But a line
  that is no candidate has no live column, so the best
  candidate is best among all implicants, and the candidates
  stand in row order.

  Key definitions include:
    * `Cover.uncoveredAfter`

  Main theorems:
    * `gain_le_of_best?_eq_some`
    * `isGreedyChoice_of_best?`
    * `greedySelection_of_cover_eq_ok`
    * `size_eq_size_implicants`
    * `cover_greedy_isGreedyChoice`
-/

namespace TwoLevel

------------------------------------------------------------
-- Best Lines
------------------------------------------------------------

/-
  In a list in row order the best line has the largest gain,
  and comes before all lines that gain as much.
-/
theorem gain_le_of_best?_eq_some
    {live : BitSet}
    {lines : List Chart.Line}
    (hAscending :
      lines.Pairwise
        (fun a b => compare a.row b.row = .lt))
    {line : Chart.Line}
    {most : Nat}
    (h : best? live lines = some (line, most)) :
    ∀ other ∈ lines,
      gain live other ≤ gain live line ∧
        (gain live other = gain live line →
          (compare line.row other.row).isLE = true) := by
  induction lines generalizing line most with
  | nil => cases h
  | cons first lines ih =>
      rcases List.pairwise_cons.1 hAscending with
        ⟨hFirst, hRest⟩
      have hSelf : (compare line.row line.row).isLE = true :=
        Std.ReflCmp.isLE_rfl
      unfold best? at h
      split at h
      · rename_i hNone
        cases h
        rw [best?_eq_none_iff.1 hNone]
        intro other hOther
        rw [List.mem_singleton.1 hOther]
        exact ⟨Nat.le_refl _, fun _ => hSelf⟩
      · rename_i second rest hSecond
        have hMost := (mem_of_best?_eq_some hSecond).2
        have hLe := ih hRest hSecond
        split at h
        · rename_i hMore
          cases h
          rw [hMost] at hMore
          intro other hOther
          rcases List.mem_cons.1 hOther with rfl | hOther
          · exact ⟨Nat.le_refl _, fun _ => hSelf⟩
          · refine ⟨Nat.le_trans (hLe other hOther).1 hMore,
              fun _ => ?_⟩
            rw [hFirst other hOther]
            rfl
        · rename_i hLess
          cases h
          rw [hMost, Nat.not_le] at hLess
          refine List.forall_mem_cons.2 ⟨?_, hLe⟩
          exact ⟨Nat.le_of_lt hLess,
            fun hEqual => absurd hEqual (Nat.ne_of_lt hLess)⟩

namespace Chart

section Greedy

variable {primes : RowSet}
variable {chart : Chart}
variable {table : Table}
variable {selection : Selection}
variable {live : BitSet}
variable {between residue : Residue}
variable {taken : List Row}

/- The candidates stand in row order. -/
theorem IsChartOf.candidates_ascending
    (h : chart.IsChartOf primes)
    (hLeaves : (chart.initial live).Leaves taken residue) :
    residue.candidates.Pairwise
      (fun a b => compare a.row b.row = .lt) := by
  have hLines :
      chart.lines.Pairwise
        (fun a b => compare a.row b.row = .lt) := by
    have hRows : chart.lines.map Line.row = primes.toList :=
      h.implicants_eq
    have hAscending := primes.ascending
    rw [← hRows] at hAscending
    exact List.pairwise_map.1 hAscending
  rcases hLeaves.candidates_eq with ⟨keep, hKeep, _⟩
  rw [hKeep]
  exact hLines.filter keep

------------------------------------------------------------
-- Steps and Runs
------------------------------------------------------------

/- The best candidate is best among all lines. -/
theorem IsChartOf.gain_le_of_best?
    (h : chart.IsChartOf primes)
    (hLeaves : (chart.initial live).Leaves taken residue)
    {line : Line}
    {most : Nat}
    (hBest :
      best? residue.live residue.prune.candidates =
        some (line, most)) :
    line ∈ chart.lines ∧ 0 < gain residue.live line ∧
      ∀ other ∈ chart.lines,
        gain residue.live other ≤ gain residue.live line ∧
          (gain residue.live other =
              gain residue.live line →
            (compare line.row other.row).isLE = true) := by
  have hPruned := Residue.leaves_prune hLeaves
  have hMem := (mem_of_best?_eq_some hBest).1
  have hPos : 0 < gain residue.live line :=
    of_decide_eq_true (List.mem_filter.1 hMem).2
  refine ⟨hPruned.mem_candidates hMem, hPos, ?_⟩
  intro other hOther
  rcases Nat.eq_zero_or_pos (gain residue.live other) with
    hZero | hGain
  · rw [hZero]
    exact ⟨Nat.zero_le _,
      fun hEqual => absurd hEqual (Nat.ne_of_lt hPos)⟩
  · rcases gain_pos_iff.1 hGain with
      ⟨column, hLive, hContains⟩
    exact gain_le_of_best?_eq_some
      (h.candidates_ascending hPruned) hBest other
      (hPruned.mem_candidates_of_contains hOther hLive
        hContains)

/- What the stage takes is what the rule asks for. -/
theorem IsRun.isGreedyChoice_of_best?
    (hRun : chart.IsRun table selection live between)
    (h : chart.IsChartOf primes)
    (hLeaves : (chart.initial live).Leaves taken residue)
    {line : Line}
    {most : Nat}
    (hBest :
      best? residue.live residue.prune.candidates =
        some (line, most)) :
    IsGreedyChoice chart.implicants
      (remainder table.onSet taken) line.row := by
  rcases h.gain_le_of_best? hLeaves hBest with
    ⟨hLine, hPos, hLe⟩
  have hCount :
      ∀ other ∈ chart.lines,
        gain residue.live other =
          (other.row.among
            (remainder table.onSet taken)).card :=
    fun other hOther =>
      hRun.gain_eq_card_among h hLeaves hOther
  refine ⟨List.mem_map_of_mem hLine, ?_,
    fun row hRow => ?_, fun row hRow hEqual => ?_⟩
  · rw [← hCount line hLine]
    exact hPos
  · rcases mem_implicants_iff_exists_line.1 hRow with
      ⟨other, hOther, rfl⟩
    rw [← hCount line hLine, ← hCount other hOther]
    exact (hLe other hOther).1
  · rcases mem_implicants_iff_exists_line.1 hRow with
      ⟨other, hOther, rfl⟩
    rw [← hCount line hLine, ← hCount other hOther] at hEqual
    exact (hLe other hOther).2 hEqual

theorem IsRun.greedySelection_of_greedyRun
    (hRun : chart.IsRun table selection live between)
    (h : chart.IsChartOf primes)
    (hLeaves : (chart.initial live).Leaves taken residue)
    {picks : List Pick}
    (hPicks : GreedyRun residue picks) :
    GreedySelection chart.implicants
      (remainder table.onSet taken)
      (picks.map Pick.row) := by
  induction hPicks generalizing taken with
  | done hDead =>
      rw [hRun.remainder_eq_empty_of_dead h hLeaves
        (BitSet.first?_eq_none_iff.1 hDead)]
      exact .done
  | pick hLive hBest hRest ih =>
      have hNext :=
        ih (leaves_prune_take hLeaves
          (h.distinct_initial live) hBest)
      rw [remainder_append] at hNext
      exact .pick
        (hRun.isGreedyChoice_of_best? h hLeaves hBest) hNext

theorem IsRun.greedySelection
    (hRun : chart.IsRun table selection live between)
    (h : chart.IsChartOf primes) :
    GreedySelection chart.implicants
      (remainder table.onSet selection.essential)
      (selection.greedy.map Pick.row) := by
  exact hRun.greedySelection_of_greedyRun h
    (hRun.leaves_between h) hRun.greedyRun

/- Both stages together make progress. -/
theorem IsRun.advances
    (hRun : chart.IsRun table selection live between)
    (h : chart.IsChartOf primes) :
    Advances table.onSet
      (selection.essential ++
        selection.greedy.map Pick.row) :=
  (hRun.advances_essential h).append
    (hRun.greedySelection h).advances

end Greedy

end Chart

------------------------------------------------------------
-- Covers
------------------------------------------------------------

/- The set of the essential rows leaves what their list does. -/
theorem Selection.remainder_cover_essential
    (selection : Selection)
    (assignments : Finset (List Bool)) :
    remainder assignments selection.cover.essential.toList =
      remainder assignments selection.essential := by
  apply remainder_congr
  intro row
  exact OrderedSet.mem_ofList_iff

namespace Chart

section Covers

variable {primes : RowSet}
variable {chart : Chart}
variable {table : Table}
variable {cover : Cover}

/- The greedy rows follow the rule on what is left over. -/
theorem IsChartOf.greedySelection_of_cover_eq_ok
    (h : chart.IsChartOf primes)
    (hCover : chart.cover table = .ok cover) :
    GreedySelection chart.implicants
      (remainder table.onSet cover.essential.toList)
      cover.greedy := by
  rcases cover_eq_ok_iff.1 hCover with
    ⟨selection, hSelect, rfl⟩
  rcases h.exists_isRun hSelect with ⟨live, between, hRun⟩
  rw [selection.remainder_cover_essential]
  exact hRun.greedySelection h

theorem IsChartOf.not_mem_essential_of_mem_greedy
    (h : chart.IsChartOf primes)
    (hCover : chart.cover table = .ok cover)
    {row : Row}
    (hRow : row ∈ cover.greedy) :
    ¬ row ∈ cover.essential := by
  intro hEssential
  rcases (h.greedySelection_of_cover_eq_ok
      hCover).advances.exists_of_mem hRow with
    ⟨assignment, hLeft, hSat⟩
  exact not_mem_of_mem_remainder hLeft hSat
    (OrderedSet.mem_toList_iff.2 hEssential)

/- The size of a cover counts no row twice. -/
theorem IsChartOf.size_eq_size_implicants
    (h : chart.IsChartOf primes)
    (hCover : chart.cover table = .ok cover) :
    cover.size = cover.implicants.size := by
  have hSelection := h.greedySelection_of_cover_eq_ok hCover
  rw [Cover.size, Cover.implicants,
    OrderedSet.size_union_ofList hSelection.advances.nodup]
  intro row hRow
  exact h.not_mem_essential_of_mem_greedy hCover hRow

end Covers

end Chart

/-
  What the essential rows and so many greedy rows leave of the
  on-set of a table.
-/
def Cover.uncoveredAfter
    (cover : Cover)
    (table : Table)
    (picks : Nat) : Finset (List Bool) :=
  remainder table.onSet
    (cover.essential.toList ++ cover.greedy.take picks)

namespace Chart

/-
  Each greedy row is the least implicant that satisfies the
  most of what is left over before it, nothing is left over
  once all of them are picked, and no row is selected twice.
-/
theorem cover_greedy_isGreedyChoice
    {primes : RowSet}
    {chart : Chart}
    {table : Table}
    {cover : Cover}
    (hChart : Chart.ofPrimes primes = .ok chart)
    (hCover : chart.cover table = .ok cover) :
    (∀ i row, cover.greedy[i]? = some row →
      IsGreedyChoice chart.implicants
        (cover.uncoveredAfter table i) row) ∧
    (∀ i ≤ cover.greedy.length,
      cover.uncoveredAfter table i = ∅ ↔
        i = cover.greedy.length) ∧
    cover.greedy.Nodup ∧
    (∀ row ∈ cover.greedy, ¬ row ∈ cover.essential) ∧
    cover.size = cover.implicants.size := by
  have h := isChartOf_of_ofPrimes hChart
  have hSelection := h.greedySelection_of_cover_eq_ok hCover
  refine ⟨fun i row hRow => ?_, fun i hi => ?_,
    hSelection.advances.nodup, fun row hRow => ?_,
    h.size_eq_size_implicants hCover⟩
  · rw [Cover.uncoveredAfter, remainder_append]
    exact hSelection.isGreedyChoice_of_getElem? hRow
  · rw [Cover.uncoveredAfter, remainder_append]
    exact hSelection.remainder_take_eq_empty_iff hi
  · exact h.not_mem_essential_of_mem_greedy hCover hRow

end Chart

namespace Table

/-
  The table of seven minterms over four variables. Two of its
  six prime implicants are essential, and the other four form
  a cycle on what these leave over.
-/
def sevenMinterms : Table where
  arity := 4
  rows :=
    OrderedSet.ofList
      ([1, 2, 3, 4, 6, 8, 9].map
        (fun index => Row.ofIndex index 4))
  arity_pos := by decide
  row_arity := by decide +kernel

/- The prime implicants of the seven minterms. -/
def sevenPrimes : RowSet :=
  OrderedSet.ofList
    [⟨[.zero, .zero, .one, .dontCare]⟩,
      ⟨[.zero, .zero, .dontCare, .one]⟩,
      ⟨[.zero, .one, .dontCare, .zero]⟩,
      ⟨[.zero, .dontCare, .one, .zero]⟩,
      ⟨[.one, .zero, .zero, .dontCare]⟩,
      ⟨[.dontCare, .zero, .zero, .one]⟩]

/- Four of them that also have all seven minterms. -/
def sevenAlternative : RowSet :=
  OrderedSet.ofList
    [⟨[.zero, .zero, .dontCare, .one]⟩,
      ⟨[.zero, .one, .dontCare, .zero]⟩,
      ⟨[.zero, .dontCare, .one, .zero]⟩,
      ⟨[.one, .zero, .zero, .dontCare]⟩]

end Table

namespace Chart

/- Both stages select two rows for the seven minterms. -/
theorem exists_cover_sevenMinterms :
    ∃ chart cover,
      Chart.ofPrimes Table.sevenPrimes = .ok chart ∧
      chart.cover Table.sevenMinterms = .ok cover ∧
      cover.essential.toList =
        [⟨[.zero, .one, .dontCare, .zero]⟩,
          ⟨[.one, .zero, .zero, .dontCare]⟩] ∧
      cover.greedy =
        [⟨[.zero, .zero, .one, .dontCare]⟩,
          ⟨[.zero, .zero, .dontCare, .one]⟩] := by
  have hOk :
      (Chart.ofPrimes Table.sevenPrimes >>= fun chart =>
        chart.cover Table.sevenMinterms).map
        (fun cover =>
          (cover.essential.toList, cover.greedy)) =
          .ok
            ([⟨[.zero, .one, .dontCare, .zero]⟩,
              ⟨[.one, .zero, .zero, .dontCare]⟩],
            [⟨[.zero, .zero, .one, .dontCare]⟩,
              ⟨[.zero, .zero, .dontCare, .one]⟩]) := by
    decide +kernel
  rcases map_eq_ok_iff.1 hOk with ⟨cover, hBoth, hLists⟩
  rcases bind_eq_ok_iff.1 hBoth with
    ⟨chart, hChart, hCover⟩
  rcases Prod.mk.inj hLists with ⟨hEssential, hGreedy⟩
  exact ⟨chart, cover, hChart, hCover, hEssential, hGreedy⟩

theorem cover_sevenMinterms_isGreedyChoice :
    ∃ chart cover,
      Chart.ofPrimes Table.sevenPrimes = .ok chart ∧
      chart.cover Table.sevenMinterms = .ok cover ∧
      cover.greedy =
        [⟨[.zero, .zero, .one, .dontCare]⟩,
          ⟨[.zero, .zero, .dontCare, .one]⟩] ∧
      (∀ i row, cover.greedy[i]? = some row →
        IsGreedyChoice chart.implicants
          (cover.uncoveredAfter Table.sevenMinterms i)
          row) ∧
      (∀ i ≤ cover.greedy.length,
        cover.uncoveredAfter Table.sevenMinterms i = ∅ ↔
          i = cover.greedy.length) ∧
      cover.greedy.Nodup ∧
      (∀ row ∈ cover.greedy, ¬ row ∈ cover.essential) ∧
      cover.size = cover.implicants.size := by
  rcases exists_cover_sevenMinterms with
    ⟨chart, cover, hChart, hCover, _, hGreedy⟩
  exact ⟨chart, cover, hChart, hCover, hGreedy,
    cover_greedy_isGreedyChoice hChart hCover⟩

end Chart

end TwoLevel
