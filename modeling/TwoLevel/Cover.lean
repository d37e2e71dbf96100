import TwoLevel.Chart

/-
  This file defines how a cover is selected from a chart: a
  set of implicants that has every assignment of a table.

  First every implicant is taken that is the only one to have
  some assignment. Then, while an assignment is left over, the
  implicant is taken that has the most of them, the first in
  row order if several do.

  Key definitions include:
    * `Residue`
    * `Residue.take`
    * `takeEssential`
    * `best?`
    * `takeGreedy`
    * `Selection`
    * `Chart.select`
    * `Cover`
    * `Chart.cover`

  Main theorems:
    * `mem_of_best?_eq_some`
    * `length_take_prune_lt`
    * `mem_implicants_iff`
-/

namespace TwoLevel

------------------------------------------------------------
-- What Is Left to Cover
------------------------------------------------------------

/-
  The columns that no selected line has, and the lines that
  may still be selected.
-/
structure Residue where
  live : BitSet
  candidates : List Chart.Line

/- The number of live columns that a line has. -/
def gain
    (live : BitSet)
    (line : Chart.Line) : Nat :=
  line.columns.interSize live

namespace Residue

/- Select a line: its columns are live no longer. -/
def take
    (residue : Residue)
    (line : Chart.Line) : Residue where
  live := residue.live.diff line.columns
  candidates :=
    residue.candidates.filter
      (fun other => other.row != line.row)

/- Drop the lines that have no live column. -/
def prune
    (residue : Residue) : Residue where
  live := residue.live
  candidates :=
    residue.candidates.filter
      (fun line => decide (0 < gain residue.live line))

theorem length_take_lt
    {residue : Residue}
    {line : Chart.Line}
    (h : line ∈ residue.candidates) :
    (residue.take line).candidates.length <
      residue.candidates.length := by
  apply List.length_filter_lt_length_iff_exists.2
  exact ⟨line, h, by simp⟩

/- Selecting after pruning leaves fewer candidates. -/
theorem length_take_prune_lt
    {residue : Residue}
    {line : Chart.Line}
    (h : line ∈ residue.prune.candidates) :
    (residue.prune.take line).candidates.length <
      residue.candidates.length :=
  Nat.lt_of_lt_of_le (length_take_lt h)
    (List.length_filter_le _ _)

end Residue

------------------------------------------------------------
-- Essential Lines
------------------------------------------------------------

/- The only candidate that has a column. -/
def soleSatisfier?
    (candidates : List Chart.Line)
    (column : Nat) : Option Chart.Line :=
  match candidates.filter
      (fun line => line.columns.contains column) with
  | [line] => some line
  | _ => none

/-
  Go through the columns, and select the sole satisfier of
  each live column that has one.

  One pass is enough. A selected line makes its own columns
  dead, and the lines that have any other column stay.
-/
def takeEssential :
    List Nat → Residue → List Row × Residue
  | [], residue => ([], residue)
  | column :: columns, residue =>
      if residue.live.contains column then
        match soleSatisfier? residue.candidates column with
        | some line =>
            let (rows, last) :=
              takeEssential columns (residue.take line)
            (line.row :: rows, last)
        | none => takeEssential columns residue
      else
        takeEssential columns residue

------------------------------------------------------------
-- Greedy Lines
------------------------------------------------------------

/- A selected row, and the number of live columns it had. -/
structure Pick where
  row : Row
  gain : Nat
  deriving DecidableEq, Repr

/-
  The line with the largest gain, the first one of those that
  have it.
-/
def best?
    (live : BitSet) :
    List Chart.Line → Option (Chart.Line × Nat)
  | [] => none
  | line :: lines =>
      match best? live lines with
      | none => some (line, gain live line)
      | some (other, most) =>
          if most ≤ gain live line then
            some (line, gain live line)
          else
            some (other, most)

theorem mem_of_best?_eq_some
    {live : BitSet}
    {lines : List Chart.Line}
    {line : Chart.Line}
    {most : Nat}
    (h : best? live lines = some (line, most)) :
    line ∈ lines ∧ most = gain live line := by
  induction lines generalizing line most with
  | nil => cases h
  | cons first lines ih =>
      unfold best? at h
      split at h
      · cases h
        exact ⟨List.mem_cons_self, rfl⟩
      · rename_i other rest hRest
        split at h
        · cases h
          exact ⟨List.mem_cons_self, rfl⟩
        · cases h
          have := ih hRest
          exact ⟨List.mem_cons_of_mem first this.1,
            this.2⟩

/-
  Select lines of largest gain until no column is live. A
  column without candidate is reported.
-/
def takeGreedy
    (arity : Nat)
    (residue : Residue) : Except Failure (List Pick) :=
  match residue.live.first? with
  | none => .ok []
  | some column =>
      match hBest :
          best? residue.live residue.prune.candidates with
      | none =>
          .error (.malformed
            (.uncoverable (Row.ofIndex column arity).toText))
      | some (line, gain) =>
          have := Residue.length_take_prune_lt
            (mem_of_best?_eq_some hBest).1
          (takeGreedy arity (residue.prune.take line)).map
            ({ row := line.row, gain } :: ·)
  termination_by residue.candidates.length

------------------------------------------------------------
-- Selections
------------------------------------------------------------

/-
  The number of columns to be covered, and the rows selected
  in either stage, in the order of their selection.
-/
structure Selection where
  relevant : Nat
  essential : List Row
  greedy : List Pick
  deriving DecidableEq, Repr

namespace Chart

/- The columns that the given assignments stand in. -/
def liveColumns
    (chart : Chart)
    (indices : List Nat) : Except Failure BitSet :=
  (BitSet.ofList chart.width indices).mapError .outOfRange

/-
  Select lines that together have every assignment of a table.
  The first assignment that no line has is reported.
-/
def select
    (chart : Chart)
    (table : Table) : Except Failure Selection :=
  if chart.arity = 0 ∨ chart.width = 0 then
    .error .degenerateChart
  else if table.arity ≠ chart.arity then
    .error (.malformed
      (.chartMismatch chart.arity table.arity))
  else do
    let minterms ← table.minterms
    let live ← chart.liveColumns minterms.toList
    match live.toList.find? (fun i => !chart.covers i) with
    | some column =>
        .error (.malformed
          (.uncoverable (chart.assignment column).toText))
    | none =>
        let (essential, residue) :=
          takeEssential live.toList
            { live, candidates := chart.lines }
        let greedy ← takeGreedy chart.arity residue
        return { relevant := live.size, essential, greedy }

end Chart

------------------------------------------------------------
-- Covers
------------------------------------------------------------

/- The selected rows: a set, and a list in order. -/
structure Cover where
  essential : RowSet
  greedy : List Row
  deriving DecidableEq

namespace Cover

/- The number of selected rows. -/
def size
    (cover : Cover) : Nat :=
  cover.essential.size + cover.greedy.length

/- Whether no row is selected. -/
def isEmpty
    (cover : Cover) : Bool :=
  cover.size == 0

/- Whether a row is selected. -/
def contains
    (cover : Cover)
    (row : Row) : Bool :=
  cover.essential.contains row || cover.greedy.contains row

/- The selected rows, as a set. -/
def implicants
    (cover : Cover) : RowSet :=
  cover.essential ∪ OrderedSet.ofList cover.greedy

@[simp] theorem mem_implicants_iff
    {cover : Cover}
    {row : Row} :
    row ∈ cover.implicants ↔
      row ∈ cover.essential ∨ row ∈ cover.greedy := by
  rw [implicants, OrderedSet.mem_union_iff,
    OrderedSet.mem_ofList_iff]

theorem contains_iff
    {cover : Cover}
    {row : Row} :
    cover.contains row = true ↔ row ∈ cover.implicants := by
  rw [mem_implicants_iff, contains, Bool.or_eq_true,
    OrderedSet.contains_iff, List.contains_iff_mem]

end Cover

/- The cover that a selection amounts to. -/
def Selection.cover
    (selection : Selection) : Cover where
  essential := OrderedSet.ofList selection.essential
  greedy := selection.greedy.map Pick.row

/- The cover of a table that is selected from a chart. -/
def Chart.cover
    (chart : Chart)
    (table : Table) : Except Failure Cover :=
  (chart.select table).map Selection.cover

end TwoLevel
