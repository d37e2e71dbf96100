import TwoLevel.Proofs.CommandLine.Listing
import TwoLevel.Proofs.Minimization.Repetition
import TwoLevel.Proofs.Minimization.Settings
import TwoLevel.Proofs.Table.Reading

/-
  This file settles what comes of a run of the command line
  that is to minimize a text, whatever options are delivered
  to it. The run succeeds just when the text is a table that
  can be enumerated. Then everything in its listing agrees
  with the function of the table: the marks of the primes, the
  columns of the grid, and the cover, which may be read as a
  table again. No setting of how to compute changes a line.

  Key definitions include:
    * `Listing.IsSole`
    * `Listing.Describes`

  Main theorems:
    * `describes_ofResult`
    * `failure?_report_eq_none_iff`
    * `report_congr`
    * `carryOut_outcome`
-/

namespace TwoLevel

namespace CommandLine

namespace Listing

------------------------------------------------------------
-- Listings That Agree With a Table
------------------------------------------------------------

/-
  On some assignment of the table the row is the only one of
  all listed primes that holds.
-/
def IsSole
    (listing : Listing)
    (table : Table)
    (row : Row) : Prop :=
  ∃ assignment, table.Holds assignment ∧
    row.satisfiedBy assignment = true ∧
    ∀ other ∈ listing.primes,
      other.1.satisfiedBy assignment = true → other.1 = row

/- The lines of the cover as a text. -/
def coverAsText
    (listing : Listing) : String :=
  "\n".intercalate (listing.cover.map coverText)

/- What is listed says of the function what the table says. -/
structure Describes
    (listing : Listing)
    (table : Table) : Prop where
  size_eq : listing.size = table.size
  arity_eq : listing.arity = table.arity
  primes_eq :
    ∀ config primes, table.reduce config = .ok primes →
      listing.primes.map Prod.fst = primes.toList
  marked_iff :
    ∀ entry ∈ listing.primes,
      entry.2 = true ↔ listing.IsSole table entry.1
  grid_rows :
    ∀ grid, listing.grid? = some grid →
      grid.map Prod.fst = listing.primes.map Prod.fst
  grid_width :
    ∀ grid, listing.grid? = some grid →
      ∀ line ∈ grid,
        line.2.length = assignmentCount table.arity
  crossed_iff :
    ∀ grid, listing.grid? = some grid →
      ∀ column < assignmentCount table.arity,
        (∃ line ∈ grid, line.2[column]? = some true) ↔
          table.Holds (Row.bitsOfIndex column table.arity)
  cover_ascending : Ascending.Sorted listing.cover
  cover_listed :
    ∀ row ∈ listing.cover,
      row ∈ listing.primes.map Prod.fst
  cover_read :
    ∃ covered,
      Table.ofText listing.coverAsText = .ok covered ∧
        ∀ assignment,
          covered.Holds assignment ↔ table.Holds assignment

------------------------------------------------------------
-- The Listing of a Result Agrees
------------------------------------------------------------

section Agreement

variable {options : Options}
variable {table : Table}
variable {result : Minimized}
variable {chart : Chart}

theorem map_fst_markedPrimes
    (result : Minimized) :
    (markedPrimes result).map Prod.fst =
      result.primes.toList := by
  simp [markedPrimes, Function.comp_def]

/- The primes with a star are the sole implicants. -/
theorem marked_iff_isSole
    (h : chart.IsChartOf result.primes)
    (hCover : chart.cover table = .ok result.cover)
    {entry : Row × Bool}
    (hEntry : entry ∈ markedPrimes result) :
    entry.2 = true ↔
      (ofResult options table result chart).IsSole table
        entry.1 := by
  rcases List.mem_map.1 hEntry with ⟨row, hRow, rfl⟩
  rw [OrderedSet.mem_toList_iff] at hRow
  show result.cover.essential.contains row = true ↔ _
  rw [OrderedSet.contains_iff, h.mem_essential_iff hCover]
  simp only [Chart.IsSoleImplicant, h.mem_implicants_iff,
    hRow, true_and, IsSole, ofResult, markedPrimes,
    List.forall_mem_map, OrderedSet.mem_toList_iff]

theorem map_fst_gridOf
    (chart : Chart) :
    (gridOf chart).map Prod.fst = chart.implicants := by
  simp [gridOf, Chart.implicants, Function.comp_def]

theorem length_of_mem_gridOf
    {line : Row × List Bool}
    (h : line ∈ gridOf chart) :
    line.2.length = chart.width := by
  rcases List.mem_map.1 h with ⟨line, _, rfl⟩
  simp

/- A cross is seen in each column that some line has. -/
theorem exists_cross_iff_covers
    {column : Nat}
    (hLt : column < chart.width) :
    (∃ line ∈ gridOf chart, line.2[column]? = some true) ↔
      chart.covers column = true := by
  simp [gridOf, Chart.covers, List.getElem?_range hLt]

/- The columns with a cross are those of the minterms. -/
theorem exists_cross_iff_holds
    (h : chart.IsChartOf result.primes)
    (hReduce : table.reduce options.config =
      .ok result.primes)
    (hArity : chart.arity = table.arity)
    {column : Nat}
    (hLt : column < assignmentCount table.arity) :
    (∃ line ∈ gridOf chart, line.2[column]? = some true) ↔
      table.Holds (Row.bitsOfIndex column table.arity) := by
  rw [← hArity] at hLt ⊢
  rw [exists_cross_iff_covers (by rwa [h.width_eq]),
    h.covers_iff, Table.holds_iff_exists_prime hReduce]
  exact and_iff_right hLt

/- The lines of the cover are read as the selected rows. -/
theorem exists_ofText_coverAsText_eq_ok
    (hResult :
      table.minimize options.config = .ok result) :
    ∃ covered,
      Table.ofText
          (ofResult options table result
            chart).coverAsText = .ok covered ∧
        ∀ assignment,
          covered.Holds assignment ↔
            table.Holds assignment := by
  rcases Table.exists_ofRows_implicants_eq_ok hResult with
    ⟨covered, _, _, hRows⟩
  have hNonempty : covered.isEmpty = false :=
    Table.isEmpty_eq_false_of_rows_eq_implicants hResult
      hRows
  have hRead :
      Table.ofText ("\n".intercalate
          (covered.rows.toList.map
            (fun row => "  " ++ row.toText))) =
        .ok covered :=
    Table.ofText_indented (by simp) hNonempty
  rw [hRows] at hRead
  exact ⟨covered, hRead, Table.holds_iff_of_rows_eq_implicants
    hResult hRows⟩

theorem eq_gridOf_of_grid?_eq_some
    {grid : List (Row × List Bool)}
    (h :
      (ofResult options table result chart).grid? =
        some grid) :
    grid = gridOf chart := by
  rw [ofResult] at h
  dsimp only at h
  split at h
  · exact (Option.some.inj h).symm
  · cases h

theorem isSome_grid?_ofResult :
    (ofResult options table result chart).grid?.isSome =
      options.chart := by
  rw [ofResult]
  cases options.chart <;> rfl

/- All that is listed agrees with the table. -/
theorem describes_ofResult
    (hResult :
      table.minimize options.config = .ok result)
    (hChart : Chart.ofPrimes result.primes = .ok chart) :
    (ofResult options table result chart).Describes
      table := by
  have h := Chart.isChartOf_of_ofPrimes hChart
  rcases Table.exists_chart_of_minimize_eq_ok hResult with
    ⟨hReduce, drawn, hDrawn, hCover⟩
  rw [hChart] at hDrawn
  cases hDrawn
  have hArity := h.arity_eq_of_reduce hReduce
  refine
    { size_eq := rfl
      arity_eq := rfl
      primes_eq := ?_
      marked_iff := fun _ => marked_iff_isSole h hCover
      grid_rows := ?_
      grid_width := ?_
      crossed_iff := ?_
      cover_ascending := result.implicants.ascending
      cover_listed := ?_
      cover_read := exists_ofText_coverAsText_eq_ok hResult }
  · intro config primes hPrimes
    rw [Table.reduce_config config options.config,
      hReduce] at hPrimes
    cases hPrimes
    exact map_fst_markedPrimes result
  · intro grid hGrid
    rw [eq_gridOf_of_grid?_eq_some hGrid, map_fst_gridOf,
      h.implicants_eq, ofResult, map_fst_markedPrimes]
  · intro grid hGrid line hLine
    rw [eq_gridOf_of_grid?_eq_some hGrid] at hLine
    rw [length_of_mem_gridOf hLine, h.width_eq, hArity]
  · intro grid hGrid column hLt
    rw [eq_gridOf_of_grid?_eq_some hGrid]
    exact exists_cross_iff_holds h hReduce hArity hLt
  · intro row hRow
    rw [ofResult, map_fst_markedPrimes,
      OrderedSet.mem_toList_iff]
    rw [ofResult, OrderedSet.mem_toList_iff] at hRow
    exact Table.mem_primes_of_mem_implicants hResult hRow

end Agreement

end Listing

------------------------------------------------------------
-- Success and Failure
------------------------------------------------------------

section Reports

variable {options options' : Options}
variable {text : String}

theorem exitCode_ofReport_eq_zero_iff
    {report : Report} :
    (Outcome.ofReport report).exitCode = 0 ↔
      report.failure? = none := by
  unfold Outcome.ofReport
  cases report.failure? with
  | none => simp [Outcome.exitCode]
  | some failure => simp [Outcome.exitCode]

theorem lines_ofReport
    (report : Report) :
    (Outcome.ofReport report).lines = report.lines := by
  unfold Outcome.ofReport
  cases report.failure? <;> rfl

/- An enumerable table is reported by what describes it. -/
theorem exists_report_eq
    {table : Table}
    (options : Options)
    (hText : Table.ofText text = .ok table)
    (hLe : table.arity ≤ maxEnumerable) :
    ∃ (result : Minimized) (listing : Listing),
      table.minimize options.config = .ok result ∧
      report options text =
        { lines :=
            listing.toLines ++
              [expressionLine options result]
          failure? := none } ∧
      listing.Describes table ∧
      listing.grid?.isSome = options.chart := by
  have hRows := Table.isEmpty_eq_false_of_ofText hText
  rcases Table.exists_minimize_eq_ok options.config hRows
      hLe with ⟨result, hResult⟩
  rcases Table.exists_chart_of_minimize_eq_ok hResult with
    ⟨_, chart, hChart, _⟩
  exact ⟨result, Listing.ofResult options table result chart,
    hResult, report_eq_ofResult hText hResult hChart,
    Listing.describes_ofResult hResult hChart,
    Listing.isSome_grid?_ofResult⟩

/- Nothing else is reported without failure. -/
theorem failure?_report_eq_none_iff :
    (report options text).failure? = none ↔
      ∃ table, Table.ofText text = .ok table ∧
        table.arity ≤ maxEnumerable := by
  constructor
  · intro h
    rcases exists_result_of_failure?_eq_none h with
      ⟨table, result, hText, hResult⟩
    refine ⟨table, hText, Nat.le_of_not_lt fun hLt => ?_⟩
    rw [Table.minimize_eq_error_of_lt options.config
      (Table.isEmpty_eq_false_of_ofText hText) hLt]
      at hResult
    cases hResult
  · intro hGiven
    rcases hGiven with ⟨table, hText, hLe⟩
    rcases exists_report_eq options hText hLe with
      ⟨result, listing, _, hReport, _⟩
    rw [hReport]

------------------------------------------------------------
-- Settings
------------------------------------------------------------

/- Only what is asked to be shown makes a difference. -/
theorem report_congr
    (hChart : options.chart = options'.chart)
    (hNames : options.names = options'.names)
    (text : String) :
    report options text = report options' text := by
  have hResult :
      ∀ result,
        resultReport options result =
          resultReport options' result := by
    intro result
    simp only [resultReport, chartLines, expressionLine,
      hChart, hNames]
  simp only [report, hResult,
    Table.minimize_config options.config options'.config]

theorem progress_congr
    (hQuiet : options.verbose = false)
    (hQuiet' : options'.verbose = false)
    (text : String) :
    progress options text = progress options' text := by
  simp only [progress, hQuiet, hQuiet', Bool.false_or,
    Table.shown_journal_config options.config
      options'.config]

end Reports

------------------------------------------------------------
-- Runs
------------------------------------------------------------

theorem carryOut_eq_ofReport
    {contents? : String → Option String}
    {options : Options}
    {text : String}
    (hText : options.text? contents? = some text) :
    carryOut contents? options =
      .ofReport (report options text) := by
  rw [carryOut, hText]

/-
  The outcome of a run that is to minimize a text. The run
  succeeds on the tables whose assignments are numbered. What
  it prints then is a listing that describes the table, and
  the expression. Other options that give the same text and
  ask for the same to be shown change no line.
-/
theorem carryOut_outcome
    {contents? : String → Option String}
    {options : Options}
    {text : String}
    (hText : options.text? contents? = some text) :
    ((carryOut contents? options).exitCode = 0 ↔
      ∃ table, Table.ofText text = .ok table ∧
        table.arity ≤ 63) ∧
    (∀ table, Table.ofText text = .ok table →
      table.arity ≤ 63 →
      ∃ (result : Minimized) (listing : Listing),
        table.minimize options.config = .ok result ∧
        (carryOut contents? options).lines =
          listing.toLines ++
            [expressionLine options result] ∧
        (carryOut contents? options).shownLines =
          listing.toLines ++
            (Text.lines
              ((expressionLine options result).toList ++
                ['\n'])).map String.ofList ∧
        listing.Describes table ∧
        listing.grid?.isSome = options.chart) ∧
    ∀ (others? : String → Option String)
      (options' : Options),
      options'.text? others? = some text →
      options'.chart = options.chart →
      options'.names = options.names →
        carryOut others? options' =
          carryOut contents? options ∧
        (options.verbose = false →
          options'.verbose = false →
            progress options' text =
              progress options text) := by
  rw [carryOut_eq_ofReport hText]
  refine ⟨?_, ?_, ?_⟩
  · rw [exitCode_ofReport_eq_zero_iff]
    exact failure?_report_eq_none_iff
  · intro table hRead hLe
    rcases exists_report_eq options hRead hLe with
      ⟨result, listing, hResult, hReport, hDescribes, hGrid⟩
    have hLines :
        (Outcome.ofReport (report options text)).lines =
          listing.toLines ++
            [expressionLine options result] := by
      rw [lines_ofReport, hReport]
    exact ⟨result, listing, hResult, hLines,
      Outcome.shownLines_eq hLines, hDescribes, hGrid⟩
  · intro others? options' hText' hChart hNames
    rw [carryOut_eq_ofReport hText',
      report_congr hChart hNames]
    exact ⟨rfl, fun hQuiet hQuiet' =>
      progress_congr hQuiet' hQuiet text⟩

/- Options that give rows, and ask for the chart. -/
def typedOptions : Options where
  rows := ["00", "01", "11"]
  names := ["a", "b"]
  chart := true

/- The same rows from a file, compared in another way. -/
def filedOptions : Options where
  input? := some "rows"
  names := ["a", "b"]
  threshold? := some 2
  sequential := true
  chart := true

theorem carryOut_outcome_typedOptions :
    typedOptions.text? (fun _ => none) = some "00 01 11" ∧
      filedOptions.text? (fun _ => some "00 01 11") =
        some "00 01 11" ∧
      (carryOut (fun _ => none) typedOptions).exitCode =
        0 ∧
      (∃ (table : Table) (listing : Listing)
          (last : String),
        Table.ofText "00 01 11" = .ok table ∧
        (carryOut (fun _ => none) typedOptions).lines =
          listing.toLines ++ [last] ∧
        listing.Describes table ∧
        listing.grid?.isSome = true) ∧
      carryOut (fun _ => some "00 01 11") filedOptions =
        carryOut (fun _ => none) typedOptions ∧
      progress filedOptions "00 01 11" =
        progress typedOptions "00 01 11" := by
  have hText :
      typedOptions.text? (fun _ => none) =
        some "00 01 11" :=
    rfl
  have hText' :
      filedOptions.text? (fun _ => some "00 01 11") =
        some "00 01 11" :=
    rfl
  have hRead :
      (Table.ofText "00 01 11").map Table.arity =
        .ok 2 := by
    decide +kernel
  rcases map_eq_ok_iff.1 hRead with
    ⟨table, hTable, hArity⟩
  have hLe : table.arity ≤ 63 := by
    rw [hArity]
    decide
  rcases carryOut_outcome hText with
    ⟨hExit, hLines, hSame⟩
  rcases hLines table hTable hLe with
    ⟨result, listing, _, hListed, _, hDescribes, hGrid⟩
  rcases hSame _ _ hText' rfl rfl with
    ⟨hRun, hProgress⟩
  exact ⟨hText, hText', hExit.2 ⟨table, hTable, hLe⟩,
    ⟨table, listing, _, hTable, hListed, hDescribes, hGrid⟩,
    hRun, hProgress rfl rfl⟩

end CommandLine

end TwoLevel
