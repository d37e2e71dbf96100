import TwoLevel.CommandLine.Report
import TwoLevel.Proofs.Chart.Columns
import TwoLevel.Proofs.Minimization.Exactness
import TwoLevel.Proofs.Table.Tokens

/-
  This file says how a report on a function is laid out. What
  stands before the expression is a listing: the size of the
  table, the primes with their marks, the grid of the chart if
  it is asked for, and the cover. No line of a listing holds a
  line end, so its lines are found again in what is printed.

  Key definitions include:
    * `Listing`
    * `Listing.toLines`
    * `Listing.ofResult`

  Main theorems:
    * `isUnbroken_of_mem_toLines`
    * `shownLines_eq`
    * `report_eq_ofResult`
-/

namespace TwoLevel

namespace CommandLine

------------------------------------------------------------
-- Listings
------------------------------------------------------------

/-
  What a report says before the expression. Every prime has a
  mark or none, and in the grid every row has one place for
  each column.
-/
structure Listing where
  size : Nat
  arity : Nat
  primes : List (Row × Bool)
  grid? : Option (List (Row × List Bool))
  cover : List Row

namespace Listing

/- A prime, and a star where it is marked. -/
def primeText
    (entry : Row × Bool) : String :=
  "  " ++ entry.1.toText ++ (if entry.2 then "*" else "")

/- A row of the grid, and a cross or a dot in each column. -/
def gridText
    (entry : Row × List Bool) : String :=
  entry.1.toText ++ " " ++
    String.ofList
      (entry.2.map (fun mark => if mark then 'X' else '.'))

/- A row of the cover. -/
def coverText
    (row : Row) : String :=
  "  " ++ row.toText

/- The size of the table. -/
def tableText
    (listing : Listing) : String :=
  "table of " ++ listing.size.repr ++ " rows over " ++
    listing.arity.repr ++ " variables"

/- The primes under their number. -/
def primeLines
    (listing : Listing) : List String :=
  ("prime implicants (" ++ listing.primes.length.repr ++
      "):") ::
    listing.primes.map primeText

/- The grid, if there is one. -/
def gridLines
    (listing : Listing) : List String :=
  match listing.grid? with
  | none => []
  | some grid => "chart:" :: grid.map gridText

/- The rows of the cover under their number. -/
def coverLines
    (listing : Listing) : List String :=
  ("cover (" ++ listing.cover.length.repr ++ "):") ::
    listing.cover.map coverText

/- All lines of a listing. -/
def toLines
    (listing : Listing) : List String :=
  listing.tableText ::
    (listing.primeLines ++ listing.gridLines ++
      listing.coverLines)

------------------------------------------------------------
-- Lines Without Line Ends
------------------------------------------------------------

section Unbroken

open Text

variable {line : String}
variable {listing : Listing}

@[simp] theorem isUnbroken_append
    (s t : String) :
    IsUnbroken (s ++ t).toList ↔
      IsUnbroken s.toList ∧ IsUnbroken t.toList := by
  rw [String.toList_append, isUnbroken_append_iff]

@[simp] theorem isUnbroken_toText
    (row : Row) :
    IsUnbroken row.toText.toList := by
  rw [Row.toText, String.toList_ofList]
  exact row.isUnbroken_toChars

theorem isUnbroken_primeText
    (entry : Row × Bool) :
    IsUnbroken (primeText entry).toList := by
  have hMark :
      IsUnbroken (if entry.2 then "*" else "").toList := by
    cases entry.2 <;> decide
  simp only [primeText, isUnbroken_append,
    isUnbroken_toText, hMark]
  decide

theorem isUnbroken_gridText
    (entry : Row × List Bool) :
    IsUnbroken (gridText entry).toList := by
  have hMarks :
      IsUnbroken
        (entry.2.map
          (fun mark => if mark then 'X' else '.')) := by
    intro c hc
    rcases List.mem_map.1 hc with ⟨mark, _, rfl⟩
    cases mark <;> decide
  simp only [gridText, isUnbroken_append,
    isUnbroken_toText, String.toList_ofList, hMarks]
  decide

theorem isUnbroken_coverText
    (row : Row) :
    IsUnbroken (coverText row).toList := by
  simp only [coverText, isUnbroken_append,
    isUnbroken_toText]
  decide

theorem isUnbroken_of_mem_gridLines
    (h : line ∈ listing.gridLines) :
    IsUnbroken line.toList := by
  unfold gridLines at h
  split at h
  · cases h
  · rcases List.mem_cons.1 h with rfl | hEntry
    · decide
    · rcases List.mem_map.1 hEntry with ⟨entry, _, rfl⟩
      exact isUnbroken_gridText entry

/- A number is printed between two unbroken texts. -/
theorem isUnbroken_numbered
    {before after : String}
    (hBefore : IsUnbroken before.toList)
    (n : Nat)
    (hAfter : IsUnbroken after.toList) :
    IsUnbroken (before ++ n.repr ++ after).toList := by
  simp only [isUnbroken_append, isUnbroken_repr, and_true]
  exact ⟨hBefore, hAfter⟩

/- No line is broken, whatever the listing says. -/
theorem isUnbroken_of_mem_toLines
    (h : line ∈ listing.toLines) :
    IsUnbroken line.toList := by
  simp only [toLines, primeLines, coverLines,
    List.mem_append, List.mem_cons, List.mem_map] at h
  rcases h with rfl | (((rfl | ⟨entry, _, rfl⟩) | hGrid) |
    rfl | ⟨row, _, rfl⟩)
  · exact isUnbroken_numbered
      (isUnbroken_numbered (by decide) _ (by decide)) _
      (by decide)
  · exact isUnbroken_numbered (by decide) _ (by decide)
  · exact isUnbroken_primeText entry
  · exact isUnbroken_of_mem_gridLines hGrid
  · exact isUnbroken_numbered (by decide) _ (by decide)
  · exact isUnbroken_coverText row

end Unbroken

end Listing

------------------------------------------------------------
-- Lines That Are Found Again
------------------------------------------------------------

/-
  The lines of a listing are found as they were printed, even
  if the line after them is broken into several.
-/
theorem Outcome.shownLines_eq
    {outcome : Outcome}
    {listing : Listing}
    {last : String}
    (h : outcome.lines = listing.toLines ++ [last]) :
    outcome.shownLines =
      listing.toLines ++
        (Text.lines (last.toList ++ ['\n'])).map
          String.ofList := by
  have hText :
      outcome.text.toList =
        (listing.toLines.map String.toList).flatMap
            (· ++ ['\n']) ++
          (last.toList ++ ['\n']) := by
    rw [Outcome.text, h, String.toList_join]
    simp [List.flatMap_map]
  have hPlain :
      ∀ line ∈ listing.toLines.map String.toList,
        Text.IsPlainLine line := by
    intro line hLine
    rcases List.mem_map.1 hLine with ⟨printed, hMem, rfl⟩
    exact (Listing.isUnbroken_of_mem_toLines
      hMem).isPlainLine
  rw [Outcome.shownLines, hText,
    Text.lines_flatMap_append hPlain, List.map_append,
    List.map_map]
  simp

------------------------------------------------------------
-- The Listing of a Result
------------------------------------------------------------

namespace Listing

/- The primes of a result, the essential ones marked. -/
def markedPrimes
    (result : Minimized) : List (Row × Bool) :=
  result.primes.toList.map
    (fun row => (row, result.cover.essential.contains row))

/- The rows of a chart with their marks. -/
def gridOf
    (chart : Chart) : List (Row × List Bool) :=
  chart.lines.map
    (fun line =>
      (line.row,
        (List.range chart.width).map line.columns.contains))

/- The listing of a table, its result and their chart. -/
def ofResult
    (options : Options)
    (table : Table)
    (result : Minimized)
    (chart : Chart) : Listing where
  size := table.size
  arity := table.arity
  primes := markedPrimes result
  grid? := if options.chart then some (gridOf chart) else none
  cover := result.implicants.toList

section Layout

variable {options : Options}
variable {table : Table}
variable {result : Minimized}
variable {chart : Chart}

theorem primeLines_ofResult :
    (ofResult options table result chart).primeLines =
      CommandLine.primeLines result := by
  simp [primeLines, ofResult, markedPrimes, primeText,
    CommandLine.primeLines, CommandLine.primeLine,
    OrderedSet.size]

theorem gridText_gridOf :
    (gridOf chart).map gridText = chart.toLines := by
  simp [gridOf, gridText, Chart.toLines, Chart.Line.toText,
    Function.comp_def]

/- The chart that is printed is the one of the selection. -/
theorem gridLines_ofResult
    (table : Table)
    (hChart : Chart.ofPrimes result.primes = .ok chart) :
    chartLines options result =
      .ok (ofResult options table result
        chart).gridLines := by
  unfold chartLines gridLines ofResult
  cases options.chart with
  | false => rfl
  | true =>
      rw [if_pos rfl, if_pos rfl, hChart]
      dsimp only
      rw [gridText_gridOf]
      rfl

theorem coverLines_ofResult :
    (ofResult options table result chart).coverLines =
      CommandLine.coverLines result :=
  rfl

end Layout

end Listing

------------------------------------------------------------
-- Reports
------------------------------------------------------------

section Reports

variable {options : Options}
variable {text : String}
variable {table : Table}

/- A result is reported by its listing and its expression. -/
theorem report_eq_ofResult
    {result : Minimized}
    {chart : Chart}
    (hText : Table.ofText text = .ok table)
    (hResult : table.minimize options.config = .ok result)
    (hChart : Chart.ofPrimes result.primes = .ok chart) :
    report options text =
      { lines :=
          (Listing.ofResult options table result
            chart).toLines ++
            [expressionLine options result]
        failure? := none } := by
  rw [report, hText]
  dsimp only
  rw [hResult]
  dsimp only
  rw [resultReport,
    Listing.gridLines_ofResult table hChart,
    Listing.toLines, Listing.primeLines_ofResult,
    Listing.coverLines_ofResult]
  rfl

/- A report without failure is one on a result. -/
theorem exists_result_of_failure?_eq_none
    (h : (report options text).failure? = none) :
    ∃ table result, Table.ofText text = .ok table ∧
      table.minimize options.config = .ok result := by
  unfold report at h
  split at h
  · cases h
  · rename_i table hText
    split at h
    · cases h
    · rename_i result hResult
      exact ⟨table, result, hText, hResult⟩

end Reports

end CommandLine

end TwoLevel
