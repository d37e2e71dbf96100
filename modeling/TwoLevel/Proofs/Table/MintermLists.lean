import TwoLevel.Proofs.Computation
import TwoLevel.Proofs.Table.Minterms

/-
  This file compares two ways to give a function: by its rows
  and by the numbers of the assignments on which it holds. A
  list of numbers makes up the table of their assignments, and
  the minterms of that table are the numbers again, in order
  and without repetition. The other way round, the minterms of
  a table make up that table when none of its rows leaves a
  variable open.

  Key definitions include:
    * `beyond?`
    * `IsListingOf`

  Main theorems:
    * `ofMinterms_eq_error`
    * `ofMinterms_eq_ofRows`
    * `ofMinterms_eq_ok_iff`
    * `mem_mintermSet_iff_of_rows`
    * `ofMinterms_mintermSet_eq_ok_iff`
    * `ofMinterms_outcome`
-/

namespace TwoLevel

namespace Row

------------------------------------------------------------
-- Rows of Numbers
------------------------------------------------------------

/- Reading the number of an assignment gives its row. -/
theorem ofIndex_indexOfBits
    (bits : List Bool) :
    ofIndex (indexOfBits bits) bits.length = ofBools bits :=
  congrArg ofBools (bitsOfIndex_indexOfBits bits)

/- No row has two numbers below the bound. -/
theorem ofIndex_inj
    {arity i j : Nat}
    (hi : i < assignmentCount arity)
    (hj : j < assignmentCount arity)
    (h : ofIndex i arity = ofIndex j arity) :
    i = j := by
  have hTruths := congrArg truths? h
  simp only [ofIndex, truths?_ofBools,
    Option.some.injEq] at hTruths
  exact bitsOfIndex_inj hi hj hTruths

theorem isAssignment_ofIndex
    (index arity : Nat) :
    (ofIndex index arity).isAssignment = true := by
  simp [isAssignment, ofIndex, ofBools]

/- A row that leaves no variable open has a number. -/
theorem exists_ofIndex_eq
    {row : Row}
    (h : row.isAssignment = true) :
    ∃ index, index < assignmentCount row.arity ∧
      row = ofIndex index row.arity := by
  rcases exists_ofBools_eq h with ⟨bits, rfl⟩
  rw [arity_ofBools]
  exact ⟨indexOfBits bits, indexOfBits_lt bits,
    (ofIndex_indexOfBits bits).symm⟩

end Row

namespace Table

------------------------------------------------------------
-- Tables of Numbered Assignments
------------------------------------------------------------

/- The first number that is no assignment's, if there is one. -/
def beyond?
    (arity : Nat)
    (indices : List Nat) : Option Nat :=
  indices.find? (fun index => assignmentCount arity ≤ index)

section Numbers

variable {arity : Nat}
variable {indices : List Nat}

theorem beyond?_eq_none_iff :
    beyond? arity indices = none ↔
      ∀ index ∈ indices, index < assignmentCount arity := by
  simp [beyond?, List.find?_eq_none]

theorem mintermRow_eq_ok
    {index : Nat}
    (hLt : index < assignmentCount arity) :
    mintermRow arity index = .ok (Row.ofIndex index arity) :=
  if_neg (Nat.not_le_of_lt hLt)

theorem mintermRow_eq_error
    {index : Nat}
    (hLe : assignmentCount arity ≤ index) :
    mintermRow arity index =
      .error (.malformed (.mintermOutOfRange index arity)) :=
  if_pos hLe

theorem arity_of_mem_map_ofIndex
    (indices : List Nat) :
    ∀ row ∈ indices.map (Row.ofIndex · arity),
      row.arity = arity := by
  intro row hRow
  rcases List.mem_map.1 hRow with ⟨index, _, rfl⟩
  exact Row.arity_ofIndex index arity

/- The rows of numbers that are all in range. -/
theorem mapM_mintermRow_eq_ok
    (h : ∀ index ∈ indices,
      index < assignmentCount arity) :
    indices.mapM (mintermRow arity) =
      .ok (indices.map (Row.ofIndex · arity)) :=
  mapM_eq_ok_map
    (fun index hIndex => mintermRow_eq_ok (h index hIndex))

/- The first number that is out of range is reported. -/
theorem mapM_mintermRow_eq_error
    {index : Nat}
    (h : beyond? arity indices = some index) :
    indices.mapM (mintermRow arity) =
      .error (.malformed
        (.mintermOutOfRange index arity)) := by
  rw [beyond?] at h
  have hBeyond := List.find?_some h
  rw [decide_eq_true_eq] at hBeyond
  apply mapM_eq_error_of_find? h ?_
    (mintermRow_eq_error hBeyond)
  intro other hWithin
  have hLt := Nat.lt_of_not_le (of_decide_eq_false hWithin)
  exact ⟨_, mintermRow_eq_ok hLt⟩

variable (hPos : 0 < arity)
variable (hLe : arity ≤ maxEnumerable)

include hPos hLe

/- With an enumerable arity only the numbers can be wrong. -/
theorem ofMinterms_eq_bind
    (indices : List Nat) :
    ofMinterms arity indices =
      indices.mapM (mintermRow arity) >>= ofRows arity := by
  have hCheck := checkEnumerable_eq_ok_iff.2 ⟨hPos, hLe⟩
  rw [ofMinterms, hCheck]
  rfl

theorem ofMinterms_eq_error
    {index : Nat}
    (h : beyond? arity indices = some index) :
    ofMinterms arity indices =
      .error (.malformed
        (.mintermOutOfRange index arity)) := by
  rw [ofMinterms_eq_bind hPos hLe,
    mapM_mintermRow_eq_error h]
  rfl

theorem ofMinterms_eq_ofRows
    (h : ∀ index ∈ indices,
      index < assignmentCount arity) :
    ofMinterms arity indices =
      ofRows arity (indices.map (Row.ofIndex · arity)) := by
  rw [ofMinterms_eq_bind hPos hLe, mapM_mintermRow_eq_ok h]
  rfl

/- Numbers in range make up the table of their assignments. -/
theorem ofMinterms_eq_ok_iff
    (h : ∀ index ∈ indices,
      index < assignmentCount arity)
    {table : Table} :
    ofMinterms arity indices = .ok table ↔
      table.arity = arity ∧
        ∀ row, row ∈ table.rows ↔
          ∃ index ∈ indices, Row.ofIndex index arity = row := by
  rw [ofMinterms_eq_ofRows hPos hLe h, ofRows_eq_ok_iff]
  constructor
  · intro hGiven
    rcases hGiven with ⟨_, hArity, hRows⟩
    refine ⟨hArity, fun row => ?_⟩
    rw [hRows, OrderedSet.mem_ofList_iff, List.mem_map]
  · intro hGiven
    rcases hGiven with ⟨hArity, hMem⟩
    refine ⟨arity_of_mem_map_ofIndex indices, hArity, ?_⟩
    ext row
    rw [hMem, OrderedSet.mem_ofList_iff, List.mem_map]

theorem exists_ofMinterms_eq_ok
    (h : ∀ index ∈ indices,
      index < assignmentCount arity) :
    ∃ table, ofMinterms arity indices = .ok table := by
  rcases exists_ofRows_eq_ok hPos
      (arity_of_mem_map_ofIndex indices) with
    ⟨table, hTable, _⟩
  exact ⟨table,
    (ofMinterms_eq_ofRows hPos hLe h).trans hTable⟩

end Numbers

------------------------------------------------------------
-- Minterms of a Table
------------------------------------------------------------

/-
  Numbers with a property, each of them once and in ascending
  order.
-/
structure IsListingOf
    (indices : List Nat)
    (p : Nat → Prop) : Prop where
  ascending : indices.Pairwise (· < ·)
  mem_iff : ∀ index, index ∈ indices ↔ p index

section Minterms

variable {table : Table}
variable {index : Nat}

/- The minterms are listed in order. -/
theorem isListingOf_mintermSet
    (table : Table) :
    IsListingOf table.mintermSet.toList
      (· ∈ table.mintermSet) where
  ascending :=
    table.mintermSet.ascending.imp Nat.compare_eq_lt.1
  mem_iff := fun _ => OrderedSet.mem_toList_iff

theorem IsListingOf.congr
    {indices : List Nat}
    {p q : Nat → Prop}
    (h : IsListingOf indices p)
    (hIff : ∀ index, p index ↔ q index) :
    IsListingOf indices q where
  ascending := h.ascending
  mem_iff := fun index => (h.mem_iff index).trans (hIff index)

/- A minterm is an assignment by which some row is met. -/
theorem mem_mintermSet_iff_metBy :
    index ∈ table.mintermSet ↔
      index < assignmentCount table.arity ∧
        ∃ row ∈ table.rows,
          row.MetBy (Row.ofIndex index table.arity) := by
  simp only [Row.metBy_ofIndex_iff]
  exact mem_mintermSet_iff_holds

/- Without open variables a minterm is listed as a row. -/
theorem mem_mintermSet_iff_ofIndex_mem
    (hFull : ∀ row ∈ table.rows, row.isAssignment = true) :
    index ∈ table.mintermSet ↔
      index < assignmentCount table.arity ∧
        Row.ofIndex index table.arity ∈ table.rows := by
  rw [mem_mintermSet_iff_holds, holds_iff_ofBools_mem hFull,
    Row.ofIndex]

/-
  The minterms of a table of numbered assignments are the
  numbers, for no two of them name one assignment.
-/
theorem mem_mintermSet_iff_of_rows
    {indices : List Nat}
    (hLt : ∀ index ∈ indices,
      index < assignmentCount table.arity)
    (hRows : ∀ row, row ∈ table.rows ↔
      ∃ index ∈ indices,
        Row.ofIndex index table.arity = row) :
    index ∈ table.mintermSet ↔ index ∈ indices := by
  have hFull :
      ∀ row ∈ table.rows, row.isAssignment = true := by
    intro row hRow
    rcases (hRows row).1 hRow with ⟨other, _, rfl⟩
    exact Row.isAssignment_ofIndex other table.arity
  rw [mem_mintermSet_iff_ofIndex_mem hFull, hRows]
  constructor
  · intro hGiven
    rcases hGiven with ⟨hIndex, other, hOther, hEq⟩
    have hSame : other = index :=
      Row.ofIndex_inj (hLt other hOther) hIndex hEq
    exact hSame ▸ hOther
  · intro hIndex
    exact ⟨hLt index hIndex, index, hIndex, rfl⟩

/-
  The minterms make up a table of assignments, which is the
  table itself just when it has no other rows.
-/
theorem ofMinterms_mintermSet_eq_ok_iff
    (hLe : table.arity ≤ maxEnumerable) :
    ofMinterms table.arity table.mintermSet.toList =
        .ok table ↔
      ∀ row ∈ table.rows, row.dontCares = 0 := by
  have hLt :
      ∀ index ∈ table.mintermSet.toList,
        index < assignmentCount table.arity := by
    intro index hIndex
    exact (mem_mintermSet_iff_holds.1 hIndex).1
  rw [ofMinterms_eq_ok_iff table.arity_pos hLe hLt,
    and_iff_right rfl]
  simp only [← Row.isAssignment_iff]
  constructor
  · intro hRows row hRow
    rcases (hRows row).1 hRow with ⟨index, _, rfl⟩
    exact Row.isAssignment_ofIndex index table.arity
  · intro hFull row
    constructor
    · intro hRow
      rcases Row.exists_ofIndex_eq (hFull row hRow) with
        ⟨index, hIndex, hEq⟩
      rw [table.row_arity row hRow] at hIndex hEq
      refine ⟨index, ?_, hEq.symm⟩
      apply (mem_mintermSet_iff_ofIndex_mem hFull).2
      exact ⟨hIndex, hEq ▸ hRow⟩
    · intro hGiven
      rcases hGiven with ⟨index, hIndex, rfl⟩
      exact ((mem_mintermSet_iff_ofIndex_mem hFull).1
        hIndex).2

end Minterms

/-
  What comes of a list of numbers: the first one that is out
  of range is refused, and else there is a table whose
  minterms are these numbers. The minterms of any table are
  the numbers of the assignments that meet a row of it, and
  they make up the table again just when no row of it has a
  don't-care.
-/
theorem ofMinterms_outcome
    {arity : Nat}
    (hPos : 0 < arity)
    (hLe : arity ≤ maxEnumerable) :
    (∀ indices,
      (∀ index, beyond? arity indices = some index →
        ofMinterms arity indices =
          .error (.malformed
            (.mintermOutOfRange index arity))) ∧
      (beyond? arity indices = none →
        ∃ table minterms,
          ofMinterms arity indices = .ok table ∧
            table.arity = arity ∧
            table.minterms = .ok minterms ∧
            IsListingOf minterms.toList (· ∈ indices))) ∧
    ∀ table : Table, table.arity = arity →
      ∃ minterms, table.minterms = .ok minterms ∧
        IsListingOf minterms.toList (fun index =>
          index < assignmentCount arity ∧
            ∃ row ∈ table.rows,
              row.MetBy (Row.ofIndex index arity)) ∧
        (ofMinterms arity minterms.toList = .ok table ↔
          ∀ row ∈ table.rows, row.dontCares = 0) := by
  refine ⟨fun indices => ⟨fun index hBeyond => ?_,
    fun hNone => ?_⟩, ?_⟩
  · exact ofMinterms_eq_error hPos hLe hBeyond
  · have hLt := beyond?_eq_none_iff.1 hNone
    rcases exists_ofMinterms_eq_ok hPos hLe hLt with
      ⟨table, hTable⟩
    rcases (ofMinterms_eq_ok_iff hPos hLe hLt).1 hTable with
      ⟨rfl, hRows⟩
    refine ⟨table, table.mintermSet, hTable, rfl,
      minterms_eq_ok hLe, ?_⟩
    exact table.isListingOf_mintermSet.congr
      (fun index => mem_mintermSet_iff_of_rows hLt hRows)
  · rintro table rfl
    refine ⟨table.mintermSet, minterms_eq_ok hLe, ?_,
      ofMinterms_mintermSet_eq_ok_iff hLe⟩
    exact table.isListingOf_mintermSet.congr
      (fun index => mem_mintermSet_iff_metBy)

/- An open row, and one that it contains. -/
def nested : Table where
  arity := 2
  rows :=
    OrderedSet.ofList
      [⟨[.one, .dontCare]⟩, ⟨[.one, .zero]⟩]
  arity_pos := Nat.two_pos
  row_arity := by decide +kernel

/-
  The first number that three variables do not have is 9, a
  number may be given twice, and the minterms of the nested
  rows make up another table.
-/
theorem ofMinterms_outcome_samples :
    ofMinterms 3 [5, 9, 0, 8] =
        .error (.malformed (.mintermOutOfRange 9 3)) ∧
      (∃ table minterms,
        ofMinterms 3 [5, 0, 5] = .ok table ∧
          table.minterms = .ok minterms ∧
          IsListingOf minterms.toList (· ∈ [5, 0, 5])) ∧
      nested.minterms = .ok (OrderedSet.ofList [2, 3]) ∧
      ofMinterms 2 [2, 3] ≠ .ok nested := by
  rcases ofMinterms_outcome (show 0 < 3 by decide)
      (by decide) with
    ⟨hLists, _⟩
  rcases ofMinterms_outcome (show 0 < 2 by decide)
      (by decide) with
    ⟨_, hTables⟩
  have hNested :
      nested.minterms = .ok (OrderedSet.ofList [2, 3]) := by
    decide +kernel
  rcases hTables nested rfl with
    ⟨minterms, hMinterms, _, hBack⟩
  have hList : minterms.toList = [2, 3] := by
    cases hMinterms.symm.trans hNested
    decide +kernel
  rw [hList] at hBack
  rcases (hLists [5, 0, 5]).2 (by decide) with
    ⟨table, minterms, hTable, _, hListed, hListing⟩
  refine ⟨(hLists [5, 9, 0, 8]).1 9 (by decide),
    ⟨table, minterms, hTable, hListed, hListing⟩, hNested,
    fun hSame => ?_⟩
  exact absurd (hBack.1 hSame) (by decide +kernel)

end Table

end TwoLevel
