import TwoLevel.Row.Assignments
import TwoLevel.Row.Text

/-
  This file defines evaluation tables: the rows on which a
  Boolean function is true, all over the same variables. The
  type holds no table without variables and no row of another
  length.

  Key definitions include:
    * `Table`
    * `Table.ofRows`
    * `Table.ofRowList`
    * `Table.ofBytes`
    * `Table.ofBools`
    * `Table.ofMinterms`
    * `Table.ofText`
    * `Table.minterms`
    * `Table.toText`

  Main theorems:
    * `checkEnumerable_eq_ok_iff`
    * `ofRows_eq_ok_iff`
    * `exists_ofRows_eq_ok`
    * `mem_mintermSet_iff`
-/

namespace TwoLevel

/- The rows on which a function of `arity` variables holds. -/
structure Table where
  arity : Nat
  rows : RowSet
  arity_pos : 0 < arity
  row_arity : ∀ row ∈ rows, row.arity = arity

------------------------------------------------------------
-- Enumerable Arities
------------------------------------------------------------

/-
  The arities whose assignments are numbered by a machine word
  with room for one more digit.
-/
def maxEnumerable : Nat :=
  63

/- Refuse an arity whose assignments are not enumerated. -/
def checkEnumerable
    (arity : Nat) : Except Failure Unit :=
  if arity = 0 then
    .error (.malformed .zeroArity)
  else if maxEnumerable < arity then
    .error (.malformed (.arityTooLarge arity))
  else
    .ok ()

theorem checkEnumerable_eq_ok_iff
    {arity : Nat} :
    checkEnumerable arity = .ok () ↔
      0 < arity ∧ arity ≤ maxEnumerable := by
  unfold checkEnumerable
  split
  · simp_all
  · split
    · simp only [reduceCtorEq, false_iff]
      omega
    · simp only [true_iff]
      omega

namespace Table

------------------------------------------------------------
-- Equality and Size
------------------------------------------------------------

theorem ext_rows
    {s t : Table}
    (hArity : s.arity = t.arity)
    (hRows : s.rows = t.rows) :
    s = t := by
  cases s
  cases t
  simp_all

instance : DecidableEq Table :=
  fun s t =>
    decidable_of_iff
      (s.arity = t.arity ∧ s.rows = t.rows)
      ⟨fun h => ext_rows h.1 h.2,
        fun h => h ▸ ⟨rfl, rfl⟩⟩

/- The number of distinct rows. -/
def size
    (table : Table) : Nat :=
  table.rows.size

/- Whether there is no row. -/
def isEmpty
    (table : Table) : Bool :=
  table.rows.isEmpty

/- Whether a row is listed in the table, as it stands. -/
def contains
    (table : Table)
    (row : Row) : Bool :=
  table.rows.contains row

------------------------------------------------------------
-- Tables of Rows
------------------------------------------------------------

/- The first row of another length, with its position. -/
def misfit?
    (arity : Nat)
    (rows : List Row) : Option (Nat × Row) :=
  (rows.zipIdx.find? (fun (row, _) => row.arity != arity)).map
    (fun (row, position) => (position, row))

theorem misfit?_eq_none_iff
    {arity : Nat}
    {rows : List Row} :
    misfit? arity rows = none ↔
      ∀ row ∈ rows, row.arity = arity := by
  unfold misfit?
  rw [Option.map_eq_none_iff, List.find?_eq_none]
  constructor
  · intro h row hRow
    rcases List.mem_iff_getElem.1 hRow with
      ⟨position, hPosition, rfl⟩
    have hMem :
        (rows[position], position) ∈ rows.zipIdx := by
      rw [List.mem_zipIdx_iff_getElem?]
      simp [hPosition]
    simpa using h _ hMem
  · rintro h ⟨row, position⟩ hMem
    have hRow := List.fst_mem_of_mem_zipIdx hMem
    simpa using h row hRow

/-
  The table of rows of a declared arity. The first row that
  does not fit is reported with its position in the list.
-/
def ofRows
    (arity : Nat)
    (rows : List Row) : Except Failure Table :=
  if hArity : arity = 0 then
    .error (.malformed .zeroArity)
  else
    match hFit : misfit? arity rows with
    | some (position, row) =>
        .error (.malformed
          (.arityMismatch position arity row.arity))
    | none =>
        .ok
          { arity
            rows := OrderedSet.ofList rows
            arity_pos := Nat.pos_of_ne_zero hArity
            row_arity := by
              intro row hRow
              rw [OrderedSet.mem_ofList_iff] at hRow
              exact misfit?_eq_none_iff.1 hFit row hRow }

theorem ofRows_eq_ok_iff
    {arity : Nat}
    {rows : List Row}
    {table : Table} :
    ofRows arity rows = .ok table ↔
      (∀ row ∈ rows, row.arity = arity) ∧
        table.arity = arity ∧
        table.rows = OrderedSet.ofList rows := by
  unfold ofRows
  split
  · rename_i hZero
    simp only [reduceCtorEq, false_iff]
    rintro ⟨_, hArity, _⟩
    have := table.arity_pos
    omega
  · split
    · rename_i position row hFit
      simp only [reduceCtorEq, false_iff]
      rintro ⟨hRows, _⟩
      rw [misfit?_eq_none_iff.2 hRows] at hFit
      cases hFit
    · rename_i hFit
      constructor
      · intro h
        cases h
        exact ⟨misfit?_eq_none_iff.1 hFit, rfl, rfl⟩
      · rintro ⟨_, hArity, hRows⟩
        congr 1
        exact ext_rows hArity.symm hRows.symm

/- Rows that all have the declared arity make up a table. -/
theorem exists_ofRows_eq_ok
    {arity : Nat}
    {rows : List Row}
    (hPos : 0 < arity)
    (hRows : ∀ row ∈ rows, row.arity = arity) :
    ∃ table, ofRows arity rows = .ok table ∧
      table.arity = arity ∧
      table.rows = OrderedSet.ofList rows := by
  have hListed :
      ∀ row ∈ OrderedSet.ofList rows, row.arity = arity := by
    intro row hRow
    exact hRows row (OrderedSet.mem_ofList_iff.1 hRow)
  exact ⟨⟨arity, OrderedSet.ofList rows, hPos, hListed⟩,
    ofRows_eq_ok_iff.2 ⟨hRows, rfl, rfl⟩, rfl, rfl⟩

/- The table of rows whose arity is that of the first row. -/
def ofRowList
    (rows : List Row) : Except Failure Table :=
  match rows.head? with
  | none => .error .emptyTable
  | some first => ofRows first.arity rows

/- The table of rows given as bytes. -/
def ofBytes
    (rows : List (List UInt8)) : Except Failure Table :=
  match rows.mapM Row.ofBytes with
  | .error fault => .error (.malformed fault)
  | .ok rows => ofRowList rows

/- The table of rows given as truth values. -/
def ofBools
    (rows : List (List Bool)) : Except Failure Table :=
  ofRowList (rows.map Row.ofBools)

------------------------------------------------------------
-- Tables of Minterms
------------------------------------------------------------

/- The row of a minterm, if the arity has that minterm. -/
def mintermRow
    (arity index : Nat) : Except Failure Row :=
  if assignmentCount arity ≤ index then
    .error (.malformed (.mintermOutOfRange index arity))
  else
    .ok (Row.ofIndex index arity)

/- The table of the assignments with the given numbers. -/
def ofMinterms
    (arity : Nat)
    (indices : List Nat) : Except Failure Table := do
  checkEnumerable arity
  let rows ← indices.mapM (mintermRow arity)
  ofRows arity rows

/-
  The numbers of the assignments on which some row is
  satisfied. Joining from the last row on makes this linear
  for a table of assignments.
-/
def mintermSet
    (table : Table) : OrderedSet Nat :=
  table.rows.toList.foldr
    (fun row indices =>
      OrderedSet.ofList row.assignments ∪ indices) ∅

private theorem mem_foldr_union_iff
    {rows : List Row}
    {index : Nat} :
    index ∈ rows.foldr
        (fun row indices =>
          OrderedSet.ofList row.assignments ∪ indices) ∅ ↔
      ∃ row ∈ rows, index ∈ row.assignments := by
  induction rows with
  | nil => simp
  | cons row rows ih =>
      rw [List.foldr_cons, OrderedSet.mem_union_iff,
        OrderedSet.mem_ofList_iff, ih]
      simp

/- A minterm is an assignment of some row. -/
theorem mem_mintermSet_iff
    {table : Table}
    {index : Nat} :
    index ∈ table.mintermSet ↔
      ∃ row ∈ table.rows, index ∈ row.assignments :=
  mem_foldr_union_iff

/- The minterms of a table whose arity is enumerable. -/
def minterms
    (table : Table) : Except Failure (OrderedSet Nat) := do
  checkEnumerable table.arity
  return table.mintermSet

------------------------------------------------------------
-- Tables as Text
------------------------------------------------------------

/- Whether a line holds a remark and no rows. -/
def isRemark
    (line : List Char) : Bool :=
  line.head? == some '#'

/- The words of a text outside the lines that are remarks. -/
def tokens
    (text : List Char) : List (List Char) :=
  (((Text.lines text).map Text.trim).filter
    (fun line => !isRemark line)).flatMap Text.words

/-
  The table of the rows written in a text. Every row is read
  before their lengths are compared.
-/
def ofText
    (text : String) : Except Failure Table :=
  match (tokens text.toList).mapM Row.ofChars with
  | .error fault => .error (.malformed fault)
  | .ok rows => ofRowList rows

/- The rows of a table, one a line. -/
def toText
    (table : Table) : String :=
  "\n".intercalate (table.rows.toList.map Row.toText)

end Table

end TwoLevel
