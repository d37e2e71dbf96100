import TwoLevel.Proofs.Computation
import TwoLevel.Proofs.Row.Order
import TwoLevel.Proofs.Table.Tokens

/-
  This file collects the ways to put in a table, and shows
  what a table is that comes out of any of them. It consists
  of just the rows that were put in, and these all have its
  arity. They are listed and printed in their order.

  Key definitions include:
    * `Table.Source`
    * `Source.table`
    * `Source.listed`
    * `Table.IsOrderly`

  Main theorems:
    * `Source.exists_listed`
    * `isOrderly`
-/

namespace TwoLevel

namespace Table

------------------------------------------------------------
-- Ways In
------------------------------------------------------------

/- What a table can be made of. -/
inductive Source where
  | rows (arity : Nat) (given : List Row)
  | bytes (given : List (List UInt8))
  | bools (given : List (List Bool))
  | minterms (arity : Nat) (indices : List Nat)
  | text (given : String)

namespace Source

/- The table that is made, or why there is none. -/
def table : Source → Except Failure Table
  | .rows arity given => ofRows arity given
  | .bytes given => ofBytes given
  | .bools given => ofBools given
  | .minterms arity indices => ofMinterms arity indices
  | .text given => ofText given

/- The rows that are put in, one after the other. -/
def listed : Source → Except Failure (List Row)
  | .rows _ given => .ok given
  | .bytes given =>
      (given.mapM Row.ofBytes).mapError .malformed
  | .bools given => .ok (given.map Row.ofBools)
  | .minterms arity indices =>
      indices.mapM (mintermRow arity)
  | .text given =>
      ((tokens given.toList).mapM
        Row.ofChars).mapError .malformed

end Source

section Ways

variable {table : Table}
variable {rows : List Row}

/- A table has the arity that was declared for it. -/
theorem ofRows_arity_of_ofRows
    {arity : Nat}
    (h : ofRows arity rows = .ok table) :
    ofRows table.arity rows = .ok table := by
  rw [(ofRows_eq_ok_iff.1 h).2.1]
  exact h

theorem ofRows_of_ofRowList
    (h : ofRowList rows = .ok table) :
    ofRows table.arity rows = .ok table := by
  unfold ofRowList at h
  split at h
  · cases h
  · exact ofRows_arity_of_ofRows h

/- All ways end in a table of rows of a declared arity. -/
theorem Source.exists_listed
    {source : Source}
    (h : source.table = .ok table) :
    ∃ rows, source.listed = .ok rows ∧
      ofRows table.arity rows = .ok table := by
  cases source with
  | rows arity given =>
      exact ⟨given, rfl, ofRows_arity_of_ofRows h⟩
  | bytes given =>
      rw [Source.table, ofBytes] at h
      rw [Source.listed]
      cases hRead : given.mapM Row.ofBytes with
      | error fault =>
          rw [hRead] at h
          cases h
      | ok rows =>
          rw [hRead] at h
          exact ⟨rows, rfl, ofRows_of_ofRowList h⟩
  | bools given =>
      exact ⟨given.map Row.ofBools, rfl,
        ofRows_of_ofRowList h⟩
  | minterms arity indices =>
      rcases bind_eq_ok_iff.1 h with ⟨_, _, hRest⟩
      rcases bind_eq_ok_iff.1 hRest with
        ⟨rows, hRows, hTable⟩
      exact ⟨rows, hRows, ofRows_arity_of_ofRows hTable⟩
  | text given =>
      rw [Source.table, ofText] at h
      rw [Source.listed]
      cases hRead : (tokens given.toList).mapM Row.ofChars with
      | error fault =>
          rw [hRead] at h
          cases h
      | ok rows =>
          rw [hRead] at h
          exact ⟨rows, rfl, ofRows_of_ofRowList h⟩

end Ways

------------------------------------------------------------
-- Orderly Tables
------------------------------------------------------------

/-
  A table has variables, all of its rows are over just these,
  and they are listed and printed ascending, each one once.
-/
structure IsOrderly
    (table : Table) : Prop where
  one_le_arity : 1 ≤ table.arity
  row_arity : ∀ row ∈ table.rows, row.arity = table.arity
  ascending : table.rows.toList.Pairwise Row.Precedes
  lines_toText :
    Text.lines table.toText.toList =
      table.rows.toList.map Row.toChars

/- The type of tables has no other tables. -/
theorem isOrderly
    (table : Table) :
    table.IsOrderly where
  one_le_arity := table.arity_pos
  row_arity := table.row_arity
  ascending := Row.pairwise_precedes table.row_arity
  lines_toText := by
    have hIndent : ∀ c ∈ ([] : List Char), c = ' ' :=
      fun c hc => absurd hc List.not_mem_nil
    have hRows : ∀ row ∈ table.rows.toList, 0 < row.arity := by
      intro row hRow
      rw [table.row_arity row
        (OrderedSet.mem_toList_iff.1 hRow)]
      exact table.arity_pos
    have hLines := lines_intercalate_rows hIndent hRows
    simp only [List.nil_append] at hLines
    rw [← hLines, toText, String.toList_intercalate,
      List.map_map]
    simp only [Function.comp_def, Row.toText,
      String.toList_ofList]
    rfl

end Table

end TwoLevel
