import TwoLevel.Proofs.Table.MintermLists
import TwoLevel.Proofs.Table.Reading

/-
  This file shows that all ways to put in rows of truth values
  come to the same: as truth values, as bytes, as rows of a
  declared arity, as the words of a text and, if they are of
  one length, by their numbers. Either there is one table, or
  the first row of another length is reported.

  Which table it is depends on the members of the list only,
  neither on their order nor on how often they are given.

  Key definitions include:
    * `Row.bytesOfBools`
    * `Row.binaryWord`
    * `Table.Gathers`

  Main theorems:
    * `ofBytes_eq_ofBools`
    * `ofText_eq_ofBools`
    * `ofMinterms_eq_ofBools`
    * `exists_ofRows_eq_ok_of_mem_iff`
    * `gathers_iff`
    * `comesTo_ofBools`
    * `ofBools_outcome`
-/

namespace TwoLevel

namespace Row

------------------------------------------------------------
-- Forms of a Row
------------------------------------------------------------

/- Truth values as the bytes 0 and 1. -/
def bytesOfBools
    (bits : List Bool) : List UInt8 :=
  bits.map (fun bit => if bit then 1 else 0)

/- Truth values as a word of the digits 0 and 1. -/
def binaryWord
    (bits : List Bool) : List Char :=
  bits.map (fun bit => if bit then '1' else '0')

/- Bytes that are truth values make up their row. -/
theorem ofBytes_bytesOfBools
    (bits : List Bool) :
    ofBytes (bytesOfBools bits) = .ok (ofBools bits) := by
  have hValues :
      (bytesOfBools bits).mapM Value.ofByte =
        .ok (bits.map Value.ofBool) := by
    rw [bytesOfBools, List.mapM_map]
    apply mapM_eq_ok_map
    intro bit _
    cases bit <;> rfl
  rw [ofBytes, hValues]
  rfl

/- The word of truth values is what their row is written as. -/
theorem toChars_ofBools
    (bits : List Bool) :
    (ofBools bits).toChars = binaryWord bits := by
  rw [toChars, ofBools, List.map_map, binaryWord]
  apply List.map_congr_left
  intro bit _
  cases bit <;> rfl

end Row

namespace Table

------------------------------------------------------------
-- Ways to Put In Rows
------------------------------------------------------------

section Paths

variable {rows : List (List Bool)}

theorem ofBytes_eq_ofBools
    (rows : List (List Bool)) :
    ofBytes (rows.map Row.bytesOfBools) = ofBools rows := by
  have hRows :
      (rows.map Row.bytesOfBools).mapM Row.ofBytes =
        .ok (rows.map Row.ofBools) := by
    rw [List.mapM_map]
    exact mapM_eq_ok_map
      (fun bits _ => Row.ofBytes_bytesOfBools bits)
  rw [ofBytes, hRows]
  rfl

/- The first row declares the arity. -/
theorem ofBools_cons
    (first : List Bool)
    (rest : List (List Bool)) :
    ofBools (first :: rest) =
      ofRows first.length
        ((first :: rest).map Row.ofBools) := by
  rw [← Row.arity_ofBools first]
  rfl

/- A text of words in digits is read as their rows. -/
theorem ofText_eq_ofBools
    {text : String}
    (h : Text.HasWords text.toList
      (rows.map Row.binaryWord)) :
    ofText text = ofBools rows := by
  have hWords := Text.hasWords_iff.1 h
  have hWritten :
      rows.map Row.binaryWord =
        (rows.map Row.ofBools).map Row.toChars := by
    rw [List.map_map]
    exact List.map_congr_left
      (fun bits _ => (Row.toChars_ofBools bits).symm)
  apply ofText_eq_ofRowList
  rw [← hWritten, ← hWords]
  apply tokens_eq_words
  rw [hWords, hWritten]
  intro word hWord hSign
  rcases List.mem_map.1 hWord with ⟨row, _, rfl⟩
  have hMem := List.mem_of_mem_head? hSign
  exact absurd (Row.mem_toChars hMem) (by decide)

/- Rows of one length are the rows of their numbers. -/
theorem map_ofIndex_indexOfBits
    {arity : Nat}
    (h : ∀ bits ∈ rows, bits.length = arity) :
    (rows.map Row.indexOfBits).map (Row.ofIndex · arity) =
      rows.map Row.ofBools := by
  rw [List.map_map]
  apply List.map_congr_left
  intro bits hBits
  rw [← h bits hBits]
  exact Row.ofIndex_indexOfBits bits

theorem ofMinterms_eq_ofRows_ofBools
    {arity : Nat}
    (hPos : 0 < arity)
    (hLe : arity ≤ maxEnumerable)
    (h : ∀ bits ∈ rows, bits.length = arity) :
    ofMinterms arity (rows.map Row.indexOfBits) =
      ofRows arity (rows.map Row.ofBools) := by
  have hLt :
      ∀ index ∈ rows.map Row.indexOfBits,
        index < assignmentCount arity := by
    intro index hIndex
    rcases List.mem_map.1 hIndex with ⟨bits, hBits, rfl⟩
    rw [← h bits hBits]
    exact Row.indexOfBits_lt bits
  rw [ofMinterms_eq_ofRows hPos hLe hLt,
    map_ofIndex_indexOfBits h]

theorem arity_of_mem_map_ofBools
    {arity : Nat}
    (h : ∀ bits ∈ rows, bits.length = arity) :
    ∀ row ∈ rows.map Row.ofBools, row.arity = arity := by
  intro row hRow
  rcases List.mem_map.1 hRow with ⟨bits, hBits, rfl⟩
  exact (Row.arity_ofBools bits).trans (h bits hBits)

end Paths

------------------------------------------------------------
-- Order and Repetition
------------------------------------------------------------

/-
  Rows of one arity make up the table of their members, and so
  does every other list of these members.
-/
theorem exists_ofRows_eq_ok_of_mem_iff
    {arity : Nat}
    {rows : List Row}
    (hPos : 0 < arity)
    (hRows : ∀ row ∈ rows, row.arity = arity) :
    ∃ table, ∀ others : List Row,
      (∀ row, row ∈ others ↔ row ∈ rows) →
        ofRows arity others = .ok table := by
  rcases exists_ofRows_eq_ok hPos hRows with
    ⟨table, _, hArity, hTable⟩
  refine ⟨table, fun others hMem => ?_⟩
  apply ofRows_eq_ok_iff.2
  refine ⟨fun row hRow => hRows row ((hMem row).1 hRow),
    hArity, ?_⟩
  ext row
  rw [hTable, OrderedSet.mem_ofList_iff,
    OrderedSet.mem_ofList_iff, hMem]

theorem ofBools_eq_of_mem_iff
    {first : List Bool}
    {rest others : List (List Bool)}
    (hFirst : first ≠ [])
    (hLengths :
      ∀ bits ∈ first :: rest, bits.length = first.length)
    (hMem :
      ∀ bits, bits ∈ others ↔ bits ∈ first :: rest) :
    ofBools others = ofBools (first :: rest) := by
  have hPos := List.length_pos_of_ne_nil hFirst
  rcases exists_ofRows_eq_ok_of_mem_iff hPos
      (arity_of_mem_map_ofBools hLengths) with
    ⟨table, hTable⟩
  cases others with
  | nil =>
      exact absurd ((hMem first).2 List.mem_cons_self)
        List.not_mem_nil
  | cons other others =>
      have hOther : other.length = first.length :=
        hLengths other ((hMem other).1 List.mem_cons_self)
      rw [ofBools_cons, ofBools_cons, hOther,
        hTable _ (fun row => Iff.rfl)]
      apply hTable
      intro row
      simp only [List.mem_map, hMem]

------------------------------------------------------------
-- What Is Put In
------------------------------------------------------------

/-
  What comes of rows of truth values. They make up a table if
  they are all of the arity, and else the first one that is
  not is reported.
-/
inductive Gathers
    (arity : Nat)
    (rows : List (List Bool)) :
    Except Failure Table → Prop where
  | table
      {table : Table}
      (hLengths : ∀ bits ∈ rows, bits.length = arity)
      (hArity : table.arity = arity)
      (hRows :
        ∀ row, row ∈ table.rows ↔
          ∃ bits ∈ rows, Row.ofBools bits = row) :
      Gathers arity rows (.ok table)
  | misfit
      {position got : Nat}
      (hMisfit : IsFirstMisfit (rows.map List.length)
        arity position got) :
      Gathers arity rows (.error (.malformed
        (.arityMismatch position arity got)))

section Gathering

variable {arity : Nat}
variable {rows : List (List Bool)}
variable {outcome : Except Failure Table}

theorem ofRows_eq_of_gathers
    (hPos : 0 < arity)
    (h : Gathers arity rows outcome) :
    ofRows arity (rows.map Row.ofBools) = outcome := by
  cases h with
  | table hLengths hArity hRows =>
      apply ofRows_eq_ok_iff.2
      refine ⟨arity_of_mem_map_ofBools hLengths, hArity, ?_⟩
      ext row
      rw [hRows, OrderedSet.mem_ofList_iff, List.mem_map]
  | misfit hMisfit =>
      have hArities :
          (rows.map Row.ofBools).map Row.arity =
            rows.map List.length := by
        rw [List.map_map]
        exact List.map_congr_left
          (fun bits _ => Row.arity_ofBools bits)
      apply ofRows_eq_error hPos
      rw [hArities]
      exact hMisfit

/- Rows of truth values always come to something. -/
theorem exists_gathers
    (hPos : 0 < arity)
    (rows : List (List Bool)) :
    ∃ outcome, Gathers arity rows outcome := by
  by_cases hLengths :
      ∀ bits ∈ rows, bits.length = arity
  · rcases exists_ofRows_eq_ok hPos
        (arity_of_mem_map_ofBools hLengths) with
      ⟨table, _, hArity, hRows⟩
    refine ⟨_, .table hLengths hArity (fun row => ?_)⟩
    rw [hRows, OrderedSet.mem_ofList_iff, List.mem_map]
  · have hDiffers :
        ∃ got ∈ rows.map List.length, got ≠ arity := by
      push Not at hLengths
      rcases hLengths with ⟨bits, hBits, hNe⟩
      exact ⟨_, List.mem_map_of_mem hBits, hNe⟩
    rcases exists_isFirstMisfit hDiffers with
      ⟨position, got, hMisfit⟩
    exact ⟨_, .misfit hMisfit⟩

theorem gathers_iff
    (hPos : 0 < arity) :
    Gathers arity rows outcome ↔
      ofRows arity (rows.map Row.ofBools) = outcome := by
  constructor
  · exact ofRows_eq_of_gathers hPos
  · rintro rfl
    rcases exists_gathers hPos rows with ⟨outcome, hGathers⟩
    rw [ofRows_eq_of_gathers hPos hGathers]
    exact hGathers

end Gathering

/-
  What all ways to put in rows of truth values come to. The
  numbers of the rows, and other lists of them, are a way too
  if the rows are of one length.
-/
structure ComesTo
    (first : List Bool)
    (rest : List (List Bool))
    (outcome : Except Failure Table) : Prop where
  of_bools : ofBools (first :: rest) = outcome
  of_bytes :
    ofBytes ((first :: rest).map Row.bytesOfBools) = outcome
  of_rows :
    ofRows first.length ((first :: rest).map Row.ofBools) =
      outcome
  of_text :
    ∀ text : String,
      Text.HasWords text.toList
          ((first :: rest).map Row.binaryWord) →
        ofText text = outcome
  of_numbers :
    (∀ bits ∈ first :: rest,
      bits.length = first.length) →
      first.length ≤ maxEnumerable →
        ofMinterms first.length
            ((first :: rest).map Row.indexOfBits) =
          outcome
  of_members :
    (∀ bits ∈ first :: rest,
      bits.length = first.length) →
      ∀ others : List (List Bool),
        (∀ bits, bits ∈ others ↔ bits ∈ first :: rest) →
          ofBools others = outcome

theorem comesTo_ofBools
    {first : List Bool}
    (hFirst : first ≠ [])
    (rest : List (List Bool)) :
    ComesTo first rest (ofBools (first :: rest)) where
  of_bools := rfl
  of_bytes := ofBytes_eq_ofBools (first :: rest)
  of_rows := (ofBools_cons first rest).symm
  of_text := fun _ hWords => ofText_eq_ofBools hWords
  of_numbers := by
    intro hLengths hLe
    have hPos := List.length_pos_of_ne_nil hFirst
    exact (ofMinterms_eq_ofRows_ofBools hPos hLe
      hLengths).trans (ofBools_cons first rest).symm
  of_members := fun hLengths _ hMem =>
    ofBools_eq_of_mem_iff hFirst hLengths hMem

/-
  All ways to put in rows of truth values come to the same,
  which is a table of these rows or the first row of another
  length. Rows of one arity, with don't-cares or without, make
  up one table in any order and with any repetition.
-/
theorem ofBools_outcome :
    (∀ first rest, first ≠ [] →
      ∃ outcome,
        Gathers first.length (first :: rest) outcome ∧
          ComesTo first rest outcome) ∧
    ∀ (arity : Nat) (rows : List Row), 0 < arity →
      (∀ row ∈ rows, row.arity = arity) →
        ∃ table, ∀ others : List Row,
          (∀ row, row ∈ others ↔ row ∈ rows) →
            ofRows arity others = .ok table := by
  constructor
  · intro first rest hFirst
    have hPos := List.length_pos_of_ne_nil hFirst
    exact ⟨ofBools (first :: rest),
      (gathers_iff hPos).2 (ofBools_cons first rest).symm,
      comesTo_ofBools hFirst rest⟩
  · intro arity rows hPos hRows
    exact exists_ofRows_eq_ok_of_mem_iff hPos hRows

/-
  Rows of two variables between all kinds of blanks, one of
  them twice, and a list whose third row is too long.
-/
theorem ofBools_outcome_samples :
    (∃ table,
      ofBools [[true, false], [false, true], [true, false]] =
          .ok table ∧
        ofText "\t10\r\n 01  10 \n" = .ok table ∧
        ofMinterms 2 [2, 1, 2] = .ok table ∧
        ofBools [[false, true], [true, false]] =
          .ok table) ∧
      ofBytes [[1], [0], [1, 0], []] =
        .error (.malformed (.arityMismatch 2 1 2)) ∧
      ∃ table, ofRows 2 [⟨[.dontCare, .one]⟩] = .ok table ∧
        ofRows 2 (List.replicate 3 ⟨[.dontCare, .one]⟩) =
          .ok table := by
  rcases ofBools_outcome with ⟨hPaths, hMembers⟩
  refine ⟨?_, ?_, ?_⟩
  · rcases hPaths [true, false]
        [[false, true], [true, false]] (by decide) with
      ⟨outcome, hGathers, hComes⟩
    cases hGathers with
    | misfit hMisfit =>
        exact absurd
          (List.mem_of_getElem? hMisfit.at_position)
          (by simpa using hMisfit.differs)
    | @table table _ _ _ =>
        refine ⟨table, hComes.of_bools,
          hComes.of_text _ (Text.hasWords_iff.2 ?_),
          hComes.of_numbers (by decide) (by decide),
          hComes.of_members (by decide) _ ?_⟩
        · decide +kernel
        · intro bits
          simp only [List.mem_cons, List.not_mem_nil]
          tauto
  · rcases hPaths [true] [[false], [true, false], []]
        (by decide) with
      ⟨outcome, hGathers, hComes⟩
    have hMisfit :
        IsFirstMisfit
          ([[true], [false], [true, false], []].map
            List.length) 1 2 2 :=
      ⟨rfl, by decide, by decide⟩
    have hLonger := ofRows_eq_of_gathers (by decide)
      (.misfit hMisfit)
    exact hComes.of_bytes.trans
      (hComes.of_rows.symm.trans hLonger)
  · rcases hMembers 2 [⟨[.dontCare, .one]⟩] (by decide)
        (by decide) with
      ⟨table, hTable⟩
    refine ⟨table, hTable _ (fun row => Iff.rfl),
      hTable _ ?_⟩
    intro row
    simp

end Table

end TwoLevel
