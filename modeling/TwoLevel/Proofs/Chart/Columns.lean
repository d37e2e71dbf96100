import TwoLevel.Chart
import TwoLevel.Proofs.Computation
import TwoLevel.Proofs.Table.Minterms

/-
  This file says what a chart of implicants holds: one line
  for each implicant, in row order, with a mark in just those
  columns whose assignment satisfies the implicant.

  Key definitions include:
    * `Chart.IsChartOf`

  Main theorems:
    * `isChartOf_of_ofPrimes`
    * `covers_iff`
-/

namespace TwoLevel

namespace Chart

------------------------------------------------------------
-- Lines
------------------------------------------------------------

/-
  A line holds a row of the chart's arity, and marks the
  columns whose assignment satisfies the row.
-/
structure IsLine
    (arity : Nat)
    (line : Line) : Prop where
  arity_eq : line.row.arity = arity
  width_eq : line.columns.width = assignmentCount arity
  contains_iff :
    ∀ column, line.columns.contains column = true ↔
      column < assignmentCount arity ∧
        line.row.satisfiedBy
          (Row.bitsOfIndex column arity) = true

theorem isLine_of_lineOf
    {arity : Nat}
    {entry : Row × Nat}
    {line : Line}
    (h : lineOf arity entry = .ok line) :
    line.row = entry.1 ∧ IsLine arity line := by
  unfold lineOf at h
  split at h
  · rename_i hArity
    rcases columnsOf_eq_ok arity entry.1 with
      ⟨columns, hColumns, hWidth, hContains⟩
    rw [hColumns] at h
    cases h
    refine ⟨rfl, hArity, hWidth, fun column => ?_⟩
    show columns.contains column = true ↔ _
    rw [hContains, Row.admits_masks, hArity,
      Bool.and_eq_true, decide_eq_true_eq]
  · cases h

------------------------------------------------------------
-- Charts of Implicants
------------------------------------------------------------

/- What building a chart of implicants leads to. -/
structure IsChartOf
    (chart : Chart)
    (primes : RowSet) : Prop where
  arity_pos : 0 < chart.arity
  arity_le : chart.arity ≤ maxEnumerable
  implicants_eq : chart.implicants = primes.toList
  lines_ne_nil : chart.lines ≠ []
  isLine : ∀ line ∈ chart.lines, IsLine chart.arity line

private theorem isLine_of_forall₂
    {arity : Nat}
    {entries : List (Row × Nat)}
    {lines : List Line}
    (h :
      List.Forall₂
        (fun entry line => lineOf arity entry = .ok line)
        entries lines) :
    lines.map Line.row = entries.map Prod.fst ∧
      ∀ line ∈ lines, IsLine arity line := by
  induction h with
  | nil => exact ⟨rfl, by simp⟩
  | cons hLine _ ih =>
      rcases isLine_of_lineOf hLine with ⟨hRow, hIsLine⟩
      refine ⟨?_, ?_⟩
      · rw [List.map_cons, List.map_cons, hRow, ih.1]
      · exact List.forall_mem_cons.2 ⟨hIsLine, ih.2⟩

theorem isChartOf_of_ofPrimes
    {primes : RowSet}
    {chart : Chart}
    (h : ofPrimes primes = .ok chart) :
    chart.IsChartOf primes := by
  unfold ofPrimes at h
  split at h
  · cases h
  · rename_i first hFirst
    split at h
    · cases h
    · rcases bind_eq_ok_iff.1 h with ⟨done, hCheck, hRest⟩
      rcases bind_eq_ok_iff.1 hRest with
        ⟨lines, hLines, hChart⟩
      have hArity := checkEnumerable_eq_ok_iff.1 hCheck
      rcases isLine_of_forall₂ (mapM_eq_ok_iff.1 hLines) with
        ⟨hRows, hIsLine⟩
      rw [List.zipIdx_map_fst] at hRows
      cases hChart
      refine ⟨hArity.1, hArity.2, hRows, ?_, hIsLine⟩
      intro hEq
      subst hEq
      rw [OrderedSet.first?, ← hRows] at hFirst
      cases hFirst

section Reading

variable {primes : RowSet}
variable {chart : Chart}

theorem IsChartOf.mem_implicants_iff
    (h : chart.IsChartOf primes)
    {row : Row} :
    row ∈ chart.implicants ↔ row ∈ primes := by
  rw [h.implicants_eq, OrderedSet.mem_toList_iff]

theorem mem_implicants_iff_exists_line
    {row : Row} :
    row ∈ chart.implicants ↔
      ∃ line ∈ chart.lines, line.row = row :=
  List.mem_map

/- No implicant has two lines. -/
theorem IsChartOf.nodup_rows
    (h : chart.IsChartOf primes) :
    (chart.lines.map Line.row).Nodup := by
  have hRows : chart.lines.map Line.row = primes.toList :=
    h.implicants_eq
  rw [hRows]
  exact OrderedSet.nodup primes

theorem IsChartOf.width_eq
    (h : chart.IsChartOf primes) :
    chart.width = assignmentCount chart.arity := by
  have hNe := h.lines_ne_nil
  have hIsLine := h.isLine
  unfold width
  split
  · rename_i hNil
    exact absurd hNil hNe
  · rename_i line lines hLines
    exact (hIsLine line (by simp [hLines])).width_eq

/- A column is covered when its assignment satisfies a row. -/
theorem IsChartOf.covers_iff
    (h : chart.IsChartOf primes)
    {column : Nat} :
    chart.covers column = true ↔
      column < assignmentCount chart.arity ∧
        ∃ row ∈ primes,
          row.satisfiedBy
            (Row.bitsOfIndex column chart.arity) = true := by
  rw [covers, List.any_eq_true]
  constructor
  · intro hGiven
    rcases hGiven with ⟨line, hLine, hContains⟩
    rcases ((h.isLine line hLine).contains_iff column).1
        hContains with ⟨hLt, hSat⟩
    have hRow : line.row ∈ chart.implicants :=
      List.mem_map_of_mem hLine
    exact ⟨hLt, line.row, h.mem_implicants_iff.1 hRow, hSat⟩
  · intro hGiven
    rcases hGiven with ⟨hLt, row, hRow, hSat⟩
    rcases mem_implicants_iff_exists_line.1
        (h.mem_implicants_iff.2 hRow) with
      ⟨line, hLine, rfl⟩
    exact ⟨line, hLine,
      ((h.isLine line hLine).contains_iff column).2
        ⟨hLt, hSat⟩⟩

end Reading

end Chart

end TwoLevel
