import TwoLevel.BitSet.Lemmas
import TwoLevel.Table

/-
  This file defines coverage charts: one line for each prime
  implicant, marking in one column for each assignment whether
  the implicant is satisfied there.

  Key definitions include:
    * `Chart`
    * `Chart.Line`
    * `Chart.ofPrimes`
    * `Chart.width`
    * `Chart.satisfies?`
    * `Chart.satisfiers`
    * `Chart.assignment`
    * `Chart.toText`

  Main theorems:
    * `columnsOf_eq_ok`
-/

namespace TwoLevel

namespace Chart

/- An implicant and the columns in which it is satisfied. -/
structure Line where
  row : Row
  columns : BitSet
  deriving DecidableEq

end Chart

/- The lines of a chart, all over the same variables. -/
structure Chart where
  arity : Nat
  lines : List Chart.Line
  deriving DecidableEq

namespace Chart

------------------------------------------------------------
-- Building
------------------------------------------------------------

/- The columns of a row: those with the digits it fixes. -/
def columnsOf
    (arity : Nat)
    (row : Row) : Except Failure BitSet :=
  (BitSet.ofList (assignmentCount arity)
    ((List.range (assignmentCount arity)).filter
      row.masks.admits)).mapError .outOfRange

/- Every column is in range, so the columns always exist. -/
theorem columnsOf_eq_ok
    (arity : Nat)
    (row : Row) :
    ∃ set, columnsOf arity row = .ok set ∧
      set.width = assignmentCount arity ∧
      ∀ i, set.contains i =
        (decide (i < assignmentCount arity) &&
          row.masks.admits i) := by
  have hLt :
      ∀ i ∈ (List.range (assignmentCount arity)).filter
          row.masks.admits,
        i < assignmentCount arity := by
    intro i hi
    exact List.mem_range.1 (List.mem_filter.1 hi).1
  rcases BitSet.ofList_of_forall_lt hLt with
    ⟨set, hSet, hWidth, hMem⟩
  refine ⟨set, ?_, hWidth, fun i => ?_⟩
  · rw [columnsOf, hSet]
    rfl
  · rw [hMem, Bool.eq_iff_iff]
    simp

/- The line of a row at a position of the list of primes. -/
def lineOf
    (arity : Nat)
    (entry : Row × Nat) : Except Failure Line :=
  if entry.1.arity = arity then do
    let columns ← columnsOf arity entry.1
    return { row := entry.1, columns }
  else
    .error (.malformed
      (.arityMismatch entry.2 arity entry.1.arity))

/-
  The chart of a set of implicants in row order. All of them
  must have the arity of the first.
-/
def ofPrimes
    (primes : RowSet) : Except Failure Chart :=
  match primes.first? with
  | none => .error .emptyPrimes
  | some first =>
      if first.arity = 0 then
        .error .degenerateChart
      else do
        checkEnumerable first.arity
        let lines ←
          primes.toList.zipIdx.mapM (lineOf first.arity)
        return { arity := first.arity, lines }

------------------------------------------------------------
-- Reading
------------------------------------------------------------

/- The number of columns. -/
def width
    (chart : Chart) : Nat :=
  match chart.lines with
  | [] => 0
  | line :: _ => line.columns.width

/- The implicants, in row order. -/
def implicants
    (chart : Chart) : List Row :=
  chart.lines.map Line.row

/- The implicant of a line, if there is such a line. -/
def implicant?
    (chart : Chart)
    (k : Nat) : Option Row :=
  chart.implicants[k]?

/- Whether a line, if there is such a line, has a column. -/
def satisfies?
    (chart : Chart)
    (k column : Nat) : Option Bool :=
  chart.lines[k]?.map
    (fun line => line.columns.contains column)

/- The lines that have a column, ascending. -/
def satisfiers
    (chart : Chart)
    (column : Nat) : List Nat :=
  chart.lines.zipIdx.filterMap
    (fun (line, k) =>
      if line.columns.contains column then some k else none)

/- Whether some line has a column. -/
def covers
    (chart : Chart)
    (column : Nat) : Bool :=
  chart.lines.any
    (fun line => line.columns.contains column)

/- The assignment that a column stands for, as a row. -/
def assignment
    (chart : Chart)
    (column : Nat) : Row :=
  Row.ofIndex column chart.arity

------------------------------------------------------------
-- Written Form
------------------------------------------------------------

/- A line is its row and a mark or a dot for each column. -/
def Line.toText
    (width : Nat)
    (line : Line) : String :=
  let marks := (List.range width).map
    (fun column =>
      if line.columns.contains column then 'X' else '.')
  line.row.toText ++ " " ++ String.ofList marks

/- The written lines of a chart. -/
def toLines
    (chart : Chart) : List String :=
  chart.lines.map (Line.toText chart.width)

/- A chart is written one line after the other. -/
def toText
    (chart : Chart) : String :=
  "\n".intercalate chart.toLines

end Chart

end TwoLevel
