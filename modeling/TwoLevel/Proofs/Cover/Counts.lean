import Mathlib.Algebra.GroupWithZero.Nat
import Mathlib.Data.List.Perm.Subperm
import TwoLevel.Journal
import TwoLevel.Proofs.Cover.GreedyStage

/-
  This file shows what the numbers of a selection add up to.
  No turn of either loop can be made without end, a selection
  makes no more turns than there are implicants, and no more
  than there are assignments to cover. The numbers recorded
  with the greedy picks are the shares that the rule hands
  out: they never grow, and their sum is what the first loop
  has left over.

  Key definitions include:
    * `Residue.Turn`
    * `shares`
    * `SharesOut`
    * `Event.greedyCount?`
    * `Selection.greedyCounts`

  Main theorems:
    * `Residue.wellFounded_turn`
    * `GreedySelection.sharesOut`
    * `greedyCounts_eq_shares`
    * `cover_counts`
-/

namespace TwoLevel

------------------------------------------------------------
-- Turns of the Loops
------------------------------------------------------------

namespace Residue

/-
  One turn of either loop: the sole satisfier of a live column
  is selected, or the best of the candidates that gain.
-/
inductive Turn : Residue → Residue → Prop where
  | essential
      {residue : Residue}
      {column : Nat}
      {line : Chart.Line}
      (hLive : residue.live.contains column = true)
      (hSole :
        soleSatisfier? residue.candidates column =
          some line) :
      Turn residue (residue.take line)
  | greedy
      {residue : Residue}
      {column : Nat}
      {line : Chart.Line}
      {gain : Nat}
      (hLive : residue.live.first? = some column)
      (hBest :
        best? residue.live residue.prune.candidates =
          some (line, gain)) :
      Turn residue (residue.prune.take line)

theorem Turn.length_lt
    {earlier later : Residue}
    (h : Turn earlier later) :
    later.candidates.length < earlier.candidates.length := by
  cases h with
  | essential hLive hSole =>
      exact length_take_lt
        (mem_of_soleSatisfier?_eq_some hSole).1
  | greedy hLive hBest =>
      exact length_take_prune_lt
        (mem_of_best?_eq_some hBest).1

/- A turn makes no line a candidate. -/
theorem Turn.mem_candidates
    {earlier later : Residue}
    (h : Turn earlier later)
    {line : Chart.Line}
    (hLine : line ∈ later.candidates) :
    line ∈ earlier.candidates := by
  cases h with
  | essential hLive hSole =>
      exact (List.mem_filter.1 hLine).1
  | greedy hLive hBest =>
      have hPruned := (List.mem_filter.1 hLine).1
      exact (List.mem_filter.1 hPruned).1

theorem Turn.width_live
    {earlier later : Residue}
    (h : Turn earlier later) :
    later.live.width = earlier.live.width := by
  cases h <;> rfl

/- No turns go on forever, whatever residue they start at. -/
theorem wellFounded_turn :
    WellFounded
      (fun later earlier : Residue => earlier.Turn later) :=
  Subrelation.wf Turn.length_lt
    (measure fun residue : Residue =>
      residue.candidates.length).wf

end Residue

------------------------------------------------------------
-- Shares
------------------------------------------------------------

/- How many of the assignments each row has in its turn. -/
def shares :
    Finset (List Bool) → List Row → List Nat
  | _, [] => []
  | uncovered, row :: rows =>
      (row.among uncovered).card ::
        shares (remainder uncovered [row]) rows

/-
  Counts that hand out a total: each of them something, and
  none of them more than the ones before.
-/
structure SharesOut
    (total : Nat)
    (counts : List Nat) : Prop where
  one_le : ∀ count ∈ counts, 1 ≤ count
  descending :
    counts.Pairwise (fun earlier later => later ≤ earlier)
  sum_eq : counts.sum = total

namespace GreedySelection

variable {implicants rows : List Row}
variable {uncovered : Finset (List Bool)}

/- Everything that is left over at first is handed out. -/
theorem sum_shares
    (h : GreedySelection implicants uncovered rows) :
    (shares uncovered rows).sum = uncovered.card := by
  induction h with
  | done => rw [shares, List.sum_nil, Finset.card_empty]
  | @pick uncovered row rows hChoice hRest ih =>
      rw [shares, List.sum_cons, ih]
      exact card_among_add_card_remainder row uncovered

theorem one_le_of_mem_shares
    (h : GreedySelection implicants uncovered rows) :
    ∀ share ∈ shares uncovered rows, 1 ≤ share := by
  induction h with
  | done =>
      intro share hShare
      cases hShare
  | pick hChoice hRest ih =>
      unfold shares
      exact List.forall_mem_cons.2 ⟨hChoice.one_le_card, ih⟩

/-
  What no implicant exceeds now, no share exceeds later: the
  assignments that are left over only become fewer.
-/
theorem le_of_mem_shares
    (h : GreedySelection implicants uncovered rows)
    {most : Nat}
    (hMost :
      ∀ row ∈ implicants,
        (row.among uncovered).card ≤ most) :
    ∀ share ∈ shares uncovered rows, share ≤ most := by
  induction h with
  | done =>
      intro share hShare
      cases hShare
  | @pick uncovered row rows hChoice hRest ih =>
      unfold shares
      refine List.forall_mem_cons.2
        ⟨hMost row hChoice.mem_implicants, ih ?_⟩
      intro other hOther
      have hFewer :
          other.among (remainder uncovered [row]) ⊆
            other.among uncovered := by
        rw [among_remainder_singleton]
        exact Finset.sdiff_subset
      exact Nat.le_trans (Finset.card_le_card hFewer)
        (hMost other hOther)

/- A later pick never has more than an earlier one. -/
theorem shares_descending
    (h : GreedySelection implicants uncovered rows) :
    (shares uncovered rows).Pairwise
      (fun earlier later => later ≤ earlier) := by
  induction h with
  | done => exact List.Pairwise.nil
  | pick hChoice hRest ih =>
      unfold shares
      have hAll :=
        (GreedySelection.pick hChoice hRest).le_of_mem_shares
          hChoice.card_le
      unfold shares at hAll
      exact List.pairwise_cons.2
        ⟨(List.forall_mem_cons.1 hAll).2, ih⟩

theorem sharesOut
    (h : GreedySelection implicants uncovered rows) :
    SharesOut uncovered.card (shares uncovered rows) where
  one_le := h.one_le_of_mem_shares
  descending := h.shares_descending
  sum_eq := h.sum_shares

end GreedySelection

------------------------------------------------------------
-- Recorded Counts
------------------------------------------------------------

/- The count that the record of a greedy pick tells. -/
def Event.greedyCount? : Event → Option Nat
  | .greedyTaken pick => some pick.gain
  | _ => none

/- The counts told by the records of a selection, in order. -/
def Selection.greedyCounts
    (selection : Selection)
    (columns : Nat) : List Nat :=
  (selection.events columns).filterMap Event.greedyCount?

theorem Selection.greedyCounts_eq
    (selection : Selection)
    (columns : Nat) :
    selection.greedyCounts columns =
      selection.greedy.map Pick.gain := by
  have hEssential :
      (selection.essential.map
        Event.essentialTaken).filterMap
          Event.greedyCount? = [] := by
    rw [List.filterMap_map, List.filterMap_eq_nil_iff]
    intro row hRow
    rfl
  have hGreedy :
      (selection.greedy.map Event.greedyTaken).filterMap
          Event.greedyCount? =
        selection.greedy.map Pick.gain := by
    rw [List.filterMap_map]
    exact congrFun List.filterMap_eq_map selection.greedy
  unfold Selection.greedyCounts Selection.events
  rw [List.filterMap_append, List.cons_append,
    List.filterMap_cons_none rfl, List.filterMap_append,
    hEssential, hGreedy, List.filterMap_cons_none rfl,
    List.filterMap_nil, List.append_nil, List.nil_append]

namespace Chart

section Counts

variable {primes : RowSet}
variable {chart : Chart}
variable {table : Table}
variable {selection : Selection}
variable {live : BitSet}
variable {between : Residue}

/- The loop counts live columns, and so counts shares. -/
theorem IsRun.gains_of_greedyRun
    (hRun : chart.IsRun table selection live between)
    (h : chart.IsChartOf primes)
    {residue : Residue}
    {taken : List Row}
    {picks : List Pick}
    (hLeaves : (chart.initial live).Leaves taken residue)
    (hPicks : GreedyRun residue picks) :
    picks.map Pick.gain =
      shares (remainder table.onSet taken)
        (picks.map Pick.row) := by
  induction hPicks generalizing taken with
  | done hDead => rfl
  | @pick residue column line gain picks hLive hBest hRest
      ih =>
      have hNext :=
        ih (leaves_prune_take hLeaves
          (h.distinct_initial live) hBest)
      rw [remainder_append] at hNext
      have hGain := (mem_of_best?_eq_some hBest).2
      have hLine := (h.gain_le_of_best? hLeaves hBest).1
      rw [List.map_cons, List.map_cons, shares, hNext, hGain]
      congr 1
      exact hRun.gain_eq_card_among h hLeaves hLine

theorem IsRun.greedyCounts_eq_shares
    (hRun : chart.IsRun table selection live between)
    (h : chart.IsChartOf primes)
    (columns : Nat) :
    selection.greedyCounts columns =
      shares (remainder table.onSet selection.essential)
        (selection.greedy.map Pick.row) := by
  rw [selection.greedyCounts_eq]
  exact hRun.gains_of_greedyRun h (hRun.leaves_between h)
    hRun.greedyRun

/- No row is selected in two turns, or in two loops. -/
theorem IsRun.length_add_length_eq_size
    (hRun : chart.IsRun table selection live between)
    (h : chart.IsChartOf primes) :
    selection.essential.length + selection.greedy.length =
      selection.cover.size := by
  have hNodup := (hRun.advances_essential h).nodup
  rw [Cover.size, Selection.cover,
    OrderedSet.size_ofList_of_nodup hNodup, List.length_map]

theorem IsRun.length_le_implicants
    (hRun : chart.IsRun table selection live between)
    (h : chart.IsChartOf primes) :
    selection.essential.length + selection.greedy.length ≤
      chart.implicants.length := by
  have hSubset :
      selection.essential ++ selection.greedy.map Pick.row ⊆
        chart.implicants := by
    intro row hRow
    rcases hRun.exists_leaves h with ⟨last, hLeaves, _⟩
    rcases hLeaves.exists_line row hRow with
      ⟨line, hLine, rfl⟩
    exact List.mem_map_of_mem hLine
  have hLe :=
    (List.subperm_of_subset (hRun.advances h).nodup
      hSubset).length_le
  rw [List.length_append, List.length_map] at hLe
  exact hLe

theorem IsRun.length_le_card_onSet
    (hRun : chart.IsRun table selection live between)
    (h : chart.IsChartOf primes) :
    selection.essential.length + selection.greedy.length ≤
      table.onSet.card := by
  have hLe := (hRun.advances h).length_le_card
  rw [List.length_append, List.length_map] at hLe
  exact hLe

end Counts

/-
  Neither loop can turn forever. A cover is what a run of both
  to their ends has selected, in no more turns than there are
  implicants or assignments to cover, and the recorded counts
  share out what no essential row has.
-/
theorem cover_counts
    {primes : RowSet}
    {chart : Chart}
    {table : Table}
    {cover : Cover}
    (hChart : Chart.ofPrimes primes = .ok chart)
    (hCover : chart.cover table = .ok cover) :
    WellFounded
      (fun later earlier : Residue => earlier.Turn later) ∧
    ∃ selection,
      chart.select table = .ok selection ∧
      selection.cover = cover ∧
      (∃ live between,
        chart.IsRun table selection live between) ∧
      selection.essential.length +
          selection.greedy.length = cover.size ∧
      cover.size ≤ chart.implicants.length ∧
      cover.size ≤ table.onSet.card ∧
      SharesOut
        (remainder table.onSet cover.essential.toList).card
        (selection.greedyCounts chart.width) := by
  have h := isChartOf_of_ofPrimes hChart
  rcases cover_eq_ok_iff.1 hCover with
    ⟨selection, hSelect, rfl⟩
  rcases h.exists_isRun hSelect with ⟨live, between, hRun⟩
  have hSize := hRun.length_add_length_eq_size h
  refine ⟨Residue.wellFounded_turn, selection, hSelect, rfl,
    ⟨live, between, hRun⟩, hSize, ?_, ?_, ?_⟩
  · rw [← hSize]
    exact hRun.length_le_implicants h
  · rw [← hSize]
    exact hRun.length_le_card_onSet h
  · rw [selection.remainder_cover_essential,
      hRun.greedyCounts_eq_shares h]
    exact (hRun.greedySelection h).sharesOut

/-
  Two essential rows leave three of the seven minterms over,
  and the greedy picks have two and one of them.
-/
theorem cover_counts_sevenMinterms :
    ∃ chart cover selection,
      Chart.ofPrimes Table.sevenPrimes = .ok chart ∧
      chart.cover Table.sevenMinterms = .ok cover ∧
      chart.select Table.sevenMinterms = .ok selection ∧
      selection.greedyCounts chart.width = [2, 1] ∧
      cover.size ≤ chart.implicants.length ∧
      cover.size ≤ Table.sevenMinterms.onSet.card ∧
      SharesOut
        (remainder Table.sevenMinterms.onSet
          cover.essential.toList).card
        (selection.greedyCounts chart.width) := by
  have hOk :
      (Chart.ofPrimes Table.sevenPrimes >>= fun chart =>
        (chart.select Table.sevenMinterms).map
          (fun selection =>
            (chart, selection.cover,
              selection.greedyCounts chart.width))).map
        (fun outcome => outcome.2.2) = .ok [2, 1] := by
    decide +kernel
  rcases map_eq_ok_iff.1 hOk with ⟨outcome, hBoth, hCounts⟩
  rcases bind_eq_ok_iff.1 hBoth with
    ⟨chart, hChart, hSelected⟩
  rcases map_eq_ok_iff.1 hSelected with
    ⟨selection, hSelect, rfl⟩
  have hCover := cover_eq_ok_iff.2 ⟨selection, hSelect, rfl⟩
  rcases (cover_counts hChart hCover).2 with
    ⟨other, hOther, _, _, _, hImplicants, hOnSet, hShares⟩
  rw [hSelect] at hOther
  cases hOther
  exact ⟨chart, selection.cover, selection, hChart, hCover,
    hSelect, hCounts, hImplicants, hOnSet, hShares⟩

end Chart

end TwoLevel
