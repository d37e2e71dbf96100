import TwoLevel.Proofs.Computation
import TwoLevel.Proofs.Minimization.Exactness
import TwoLevel.Proofs.Table.Tokens

/-
  This file settles what comes of reading a text as a table.
  The tokens of the text are its rows. A character that is no
  value is reported before anything else, wherever it stands,
  and a row of another length only when all rows are read.

  Key definitions include:
    * `Value.isForeign`
    * `Table.IsFirstMisfit`
    * `Table.Reads`

  Main theorems:
    * `ofRows_eq_error`
    * `reads_iff`
    * `ofText_indented`
    * `ofText_outcome`
-/

namespace TwoLevel

------------------------------------------------------------
-- Characters That Are No Value
------------------------------------------------------------

namespace Value

/- Whether a character is written for no value. -/
def isForeign
    (c : Char) : Bool :=
  c != '0' && c != '1' && c != '-'

theorem ofChar_eq_error
    {c : Char}
    (h : isForeign c = true) :
    ofChar c =
      .error (.invalidValue (String.singleton c)) := by
  simp only [isForeign, Bool.and_eq_true, bne_iff_ne] at h
  rcases h with ⟨⟨hZero, hOne⟩, hDash⟩
  rw [ofChar, if_neg hZero, if_neg hOne, if_neg hDash]

theorem exists_ofChar_eq_ok
    {c : Char}
    (h : isForeign c = false) :
    ∃ v, ofChar c = .ok v := by
  unfold ofChar
  split
  · exact ⟨_, rfl⟩
  · split
    · exact ⟨_, rfl⟩
    · split
      · exact ⟨_, rfl⟩
      · simp_all [isForeign]

end Value

namespace Row

/- The first character that is no value is reported. -/
theorem ofChars_eq_error
    {cs : List Char}
    {c : Char}
    (h : cs.find? Value.isForeign = some c) :
    ofChars cs =
      .error (.invalidValue (String.singleton c)) := by
  have hForeign := List.find?_some h
  have hValues :
      cs.mapM Value.ofChar =
        .error (.invalidValue (String.singleton c)) :=
    mapM_eq_error_of_find? h
      (fun _ hValue => Value.exists_ofChar_eq_ok hValue)
      (Value.ofChar_eq_error hForeign)
  rw [ofChars, hValues]
  rfl

theorem exists_ofChars_eq_ok
    {cs : List Char}
    (h : cs.find? Value.isForeign = none) :
    ∃ row, ofChars cs = .ok row := by
  have hRead : ∀ c ∈ cs, ∃ v, Value.ofChar c = .ok v := by
    intro c hc
    apply Value.exists_ofChar_eq_ok
    simpa using List.find?_eq_none.1 h c hc
  rcases exists_mapM_eq_ok hRead with ⟨values, hValues⟩
  exact ⟨{ values }, by rw [ofChars, hValues]; rfl⟩

theorem toChars_inj
    {row other : Row} :
    row.toChars = other.toChars ↔ row = other := by
  rw [← ofChars_eq_ok_iff, ofChars_toChars,
    Except.ok.injEq]

/- A list of rows is read from what is written for it. -/
theorem mapM_ofChars_eq_ok_iff
    {tokens : List (List Char)}
    {rows : List Row} :
    tokens.mapM ofChars = .ok rows ↔
      tokens = rows.map toChars := by
  simp only [mapM_eq_ok_iff, ofChars_eq_ok_iff,
    ← List.forall₂_map_right_iff, List.forall₂_eq_eq_eq]

/-
  The rows are read one after another, so it is the first
  character of them all that is reported.
-/
theorem mapM_ofChars_eq_error
    {tokens : List (List Char)}
    {c : Char}
    (h : tokens.flatten.find? Value.isForeign = some c) :
    tokens.mapM ofChars =
      .error (.invalidValue (String.singleton c)) := by
  rw [List.find?_flatten, List.findSome?_eq_some_iff] at h
  rcases h with ⟨before, token, after, rfl, hc, hBefore⟩
  apply mapM_eq_error
  · intro other hOther
    exact exists_ofChars_eq_ok (hBefore other hOther)
  · exact ofChars_eq_error hc

theorem exists_eq_map_toChars
    {tokens : List (List Char)}
    (h : tokens.flatten.find? Value.isForeign = none) :
    ∃ rows : List Row, tokens = rows.map toChars := by
  rw [List.find?_flatten, List.findSome?_eq_none_iff] at h
  have hRead :
      ∀ token ∈ tokens, ∃ row, ofChars token = .ok row :=
    fun token hToken => exists_ofChars_eq_ok (h token hToken)
  rcases exists_mapM_eq_ok hRead with ⟨rows, hRows⟩
  exact ⟨rows, mapM_ofChars_eq_ok_iff.1 hRows⟩

end Row

namespace Table

------------------------------------------------------------
-- Rows of Another Length
------------------------------------------------------------

/-
  The first of the lengths that is not the expected one, and
  its position.
-/
structure IsFirstMisfit
    (lengths : List Nat)
    (expected position got : Nat) : Prop where
  at_position : lengths[position]? = some got
  differs : got ≠ expected
  earlier_fit :
    ∀ i < position, lengths[i]? = some expected

theorem exists_isFirstMisfit
    {lengths : List Nat}
    {expected : Nat}
    (h : ∃ got ∈ lengths, got ≠ expected) :
    ∃ position got,
      IsFirstMisfit lengths expected position got := by
  induction lengths with
  | nil =>
      rcases h with ⟨_, hMem, _⟩
      cases hMem
  | cons length lengths ih =>
      by_cases hFits : length = expected
      · subst hFits
        have hLater : ∃ got ∈ lengths, got ≠ length := by
          rcases h with ⟨got, hGot, hNe⟩
          rcases List.mem_cons.1 hGot with hEq | hGot
          · exact absurd hEq hNe
          · exact ⟨got, hGot, hNe⟩
        rcases ih hLater with ⟨position, got, hMisfit⟩
        refine ⟨position + 1, got, hMisfit.at_position,
          hMisfit.differs, ?_⟩
        rintro (_ | i) hi
        · rfl
        · exact hMisfit.earlier_fit i (Nat.lt_of_succ_lt_succ hi)
      · exact ⟨0, length, rfl, hFits,
          fun i hi => absurd hi (Nat.not_lt_zero i)⟩

theorem misfit?_eq_some
    {rows : List Row}
    {expected position got : Nat}
    (h : IsFirstMisfit (rows.map Row.arity)
      expected position got) :
    ∃ row, row.arity = got ∧
      misfit? expected rows = some (position, row) := by
  have hPosition := h.at_position
  rw [List.getElem?_map, Option.map_eq_some_iff] at hPosition
  rcases hPosition with ⟨row, hRow, hArity⟩
  refine ⟨row, hArity, ?_⟩
  rw [misfit?, Option.map_eq_some_iff]
  refine ⟨(row, position), ?_, rfl⟩
  rcases List.getElem?_eq_some_iff.1 hRow with ⟨hLt, hGet⟩
  rw [List.find?_eq_some_iff_getElem]
  refine ⟨?_, position, ?_, ?_, ?_⟩
  · simpa [hArity] using h.differs
  · simpa using hLt
  · simp [hGet]
  · intro i hi
    have hFits := h.earlier_fit i hi
    rw [List.getElem?_map,
      List.getElem?_eq_getElem (hi.trans hLt)] at hFits
    simpa using hFits

/- A row of another length than declared is refused. -/
theorem ofRows_eq_error
    {rows : List Row}
    {expected position got : Nat}
    (hPos : 0 < expected)
    (h : IsFirstMisfit (rows.map Row.arity)
      expected position got) :
    ofRows expected rows =
      .error (.malformed
        (.arityMismatch position expected got)) := by
  rcases misfit?_eq_some h with ⟨row, rfl, hMisfit⟩
  unfold ofRows
  rw [dif_neg hPos.ne']
  split
  · rename_i hEq
    rw [hMisfit] at hEq
    cases hEq
    rfl
  · rename_i hEq
    rw [hMisfit] at hEq
    cases hEq

------------------------------------------------------------
-- What Is Read
------------------------------------------------------------

/-
  What comes of reading tokens as rows. The constructors are
  in the order in which the failures are told apart.
-/
inductive Reads
    (tokens : List (List Char)) :
    Except Failure Table → Prop where
  | foreign
      {c : Char}
      (hFirst :
        tokens.flatten.find? Value.isForeign = some c) :
      Reads tokens (.error (.malformed
        (.invalidValue (String.singleton c))))
  | empty
      (hNone : tokens = []) :
      Reads tokens (.error (.emptyInput "evaluation table"))
  | misfit
      {first : List Char}
      {position got : Nat}
      (hValues :
        tokens.flatten.find? Value.isForeign = none)
      (hFirst : tokens.head? = some first)
      (hMisfit : IsFirstMisfit (tokens.map List.length)
        first.length position got) :
      Reads tokens (.error (.malformed
        (.arityMismatch position first.length got)))
  | rows
      {first : List Char}
      {table : Table}
      (hValues :
        tokens.flatten.find? Value.isForeign = none)
      (hFirst : tokens.head? = some first)
      (hLengths :
        ∀ token ∈ tokens, token.length = first.length)
      (hArity : table.arity = first.length)
      (hRows :
        ∀ cs, (∃ row ∈ table.rows, row.toChars = cs) ↔
          cs ∈ tokens) :
      Reads tokens (.ok table)

section Reading

variable {text : String}
variable {rows : List Row}

theorem ofText_eq_error_of_foreign
    {c : Char}
    (h : (tokens text.toList).flatten.find?
      Value.isForeign = some c) :
    ofText text =
      .error (.malformed
        (.invalidValue (String.singleton c))) := by
  rw [ofText, Row.mapM_ofChars_eq_error h]

/- Tokens that are rows give the table of these rows. -/
theorem ofText_eq_ofRowList
    (h : tokens text.toList = rows.map Row.toChars) :
    ofText text = ofRowList rows := by
  rw [ofText, Row.mapM_ofChars_eq_ok_iff.2 h]

/- No row that is read is without a value. -/
theorem arity_pos_of_tokens
    (h : tokens text.toList = rows.map Row.toChars)
    {row : Row}
    (hRow : row ∈ rows) :
    0 < row.arity := by
  have hMem : row.toChars ∈ tokens text.toList := by
    rw [h]
    exact List.mem_map_of_mem hRow
  rw [← Row.length_toChars]
  exact List.length_pos_of_ne_nil (mem_tokens_ne_nil hMem)

/- The rows of the tokens, as a head and what follows it. -/
theorem exists_rows_of_tokens
    {first : List Char}
    (hValues : (tokens text.toList).flatten.find?
      Value.isForeign = none)
    (hFirst : (tokens text.toList).head? = some first) :
    ∃ (row : Row) (rest : List Row),
      tokens text.toList = (row :: rest).map Row.toChars ∧
        row.arity = first.length := by
  rcases Row.exists_eq_map_toChars hValues with
    ⟨rows, hRows⟩
  cases rows with
  | nil =>
      rw [hRows] at hFirst
      cases hFirst
  | cons row rest =>
      refine ⟨row, rest, hRows, ?_⟩
      rw [hRows, List.map_cons, List.head?_cons,
        Option.some.injEq] at hFirst
      rw [← hFirst, Row.length_toChars]

theorem map_arity_eq
    {tokens : List (List Char)}
    (h : tokens = rows.map Row.toChars) :
    rows.map Row.arity = tokens.map List.length := by
  rw [h, List.map_map]
  exact List.map_congr_left
    (fun row _ => (Row.length_toChars row).symm)

/- Tokens of one length are written for rows of a table. -/
theorem exists_table_of_tokens
    {first : List Char}
    (hValues : (tokens text.toList).flatten.find?
      Value.isForeign = none)
    (hFirst : (tokens text.toList).head? = some first)
    (hLengths : ∀ token ∈ tokens text.toList,
      token.length = first.length) :
    ∃ table : Table, table.arity = first.length ∧
      ∀ cs, (∃ row ∈ table.rows, row.toChars = cs) ↔
        cs ∈ tokens text.toList := by
  rcases exists_rows_of_tokens hValues hFirst with
    ⟨row, rest, hTokens, hLength⟩
  have hFit :
      ∀ other ∈ row :: rest,
        other.arity = first.length := by
    intro other hOther
    rw [← Row.length_toChars]
    apply hLengths
    rw [hTokens]
    exact List.mem_map_of_mem hOther
  have hPos : 0 < first.length := by
    rw [← hLength]
    exact arity_pos_of_tokens hTokens List.mem_cons_self
  rcases exists_ofRows_eq_ok hPos hFit with
    ⟨table, _, hArity, hRows⟩
  refine ⟨table, hArity, ?_⟩
  intro cs
  rw [hRows, hTokens, List.mem_map]
  simp only [OrderedSet.mem_ofList_iff]

/- What the tokens of a text give is what the text gives. -/
theorem ofText_eq_of_reads
    {outcome : Except Failure Table}
    (h : Reads (tokens text.toList) outcome) :
    ofText text = outcome := by
  cases h with
  | foreign hFirst => exact ofText_eq_error_of_foreign hFirst
  | empty hNone =>
      have hTokens :
          tokens text.toList =
            ([] : List Row).map Row.toChars :=
        hNone
      rw [ofText_eq_ofRowList hTokens]
      rfl
  | misfit hValues hFirst hMisfit =>
      rcases exists_rows_of_tokens hValues hFirst with
        ⟨row, rest, hTokens, hArity⟩
      have hPos :=
        arity_pos_of_tokens hTokens List.mem_cons_self
      rw [← map_arity_eq hTokens, ← hArity] at hMisfit
      rw [ofText_eq_ofRowList hTokens, ← hArity]
      exact ofRows_eq_error hPos hMisfit
  | rows hValues hFirst hLengths hArity hRows =>
      rename_i first table
      rcases exists_rows_of_tokens hValues hFirst with
        ⟨row, rest, hTokens, hLength⟩
      rw [ofText_eq_ofRowList hTokens]
      apply ofRows_eq_ok_iff.2
      refine ⟨?_, hArity.trans hLength.symm, ?_⟩
      · intro other hOther
        have hMem :
            other.toChars ∈ tokens text.toList := by
          rw [hTokens]
          exact List.mem_map_of_mem hOther
        rw [hLength, ← hLengths _ hMem, Row.length_toChars]
      · ext other
        have hMem := hRows other.toChars
        simp only [Row.toChars_inj, exists_eq_right] at hMem
        rw [hMem, hTokens, OrderedSet.mem_ofList_iff,
          List.mem_map]
        simp only [Row.toChars_inj, exists_eq_right]

/- The tokens of a text always give something. -/
theorem exists_reads
    (text : String) :
    ∃ outcome, Reads (tokens text.toList) outcome := by
  cases hValues :
      (tokens text.toList).flatten.find?
        Value.isForeign with
  | some c => exact ⟨_, .foreign hValues⟩
  | none =>
      cases hFirst : (tokens text.toList).head? with
      | none =>
          exact ⟨_, .empty (List.head?_eq_none_iff.1 hFirst)⟩
      | some first =>
          by_cases hLengths :
              ∀ token ∈ tokens text.toList,
                token.length = first.length
          · rcases exists_table_of_tokens hValues hFirst
                hLengths with
              ⟨table, hArity, hRows⟩
            exact ⟨_, .rows hValues hFirst hLengths
              hArity hRows⟩
          · have hMisfit :
                ∃ got ∈ (tokens text.toList).map
                    List.length,
                  got ≠ first.length := by
              push Not at hLengths
              rcases hLengths with ⟨token, hToken, hNe⟩
              exact ⟨_, List.mem_map_of_mem hToken, hNe⟩
            rcases exists_isFirstMisfit hMisfit with
              ⟨position, got, hMisfit⟩
            exact ⟨_, .misfit hValues hFirst hMisfit⟩

theorem reads_iff
    {outcome : Except Failure Table} :
    Reads (tokens text.toList) outcome ↔
      ofText text = outcome := by
  constructor
  · exact ofText_eq_of_reads
  · rintro rfl
    rcases exists_reads text with ⟨outcome, hReads⟩
    rw [ofText_eq_of_reads hReads]
    exact hReads

/- What is read has a row. -/
theorem isEmpty_eq_false_of_ofText
    {table : Table}
    (h : ofText text = .ok table) :
    table.isEmpty = false := by
  cases reads_iff.2 h with
  | rows hValues hFirst hLengths hArity hRows =>
      rcases (hRows _).2 (List.mem_of_mem_head? hFirst) with
        ⟨row, hRow, _⟩
      exact OrderedSet.isEmpty_eq_false_of_mem hRow

end Reading

------------------------------------------------------------
-- Written Tables
------------------------------------------------------------

section Written

variable {table : Table}

/- The rows of a table make up that table. -/
theorem ofRowList_toList
    (hRows : table.isEmpty = false) :
    ofRowList table.rows.toList = .ok table := by
  rcases OrderedSet.exists_first?_eq_some hRows with
    ⟨first, hMem, hFirst⟩
  have hHead : table.rows.toList.head? = some first := hFirst
  rw [ofRowList, hHead]
  apply ofRows_eq_ok_iff.2
  have hArity := table.row_arity first hMem
  refine ⟨?_, hArity.symm, ?_⟩
  · intro row hRow
    rw [hArity]
    exact table.row_arity row hRow
  · rw [OrderedSet.ofList_toList]

/- A table is read from its rows, however they are indented. -/
theorem ofText_indented
    {indent : String}
    (hIndent : ∀ c ∈ indent.toList, c = ' ')
    (hRows : table.isEmpty = false) :
    ofText ("\n".intercalate
        (table.rows.toList.map
          (fun row => indent ++ row.toText))) =
      .ok table := by
  rw [← ofRowList_toList hRows]
  apply ofText_eq_ofRowList
  have hPos : ∀ row ∈ table.rows.toList, 0 < row.arity := by
    intro row hRow
    rw [table.row_arity row hRow]
    exact table.arity_pos
  rw [← tokens_intercalate_rows hIndent hPos,
    String.toList_intercalate, List.map_map]
  simp only [Function.comp_def, String.toList_append,
    Row.toText, String.toList_ofList]
  rfl

theorem ofText_toText
    (hRows : table.isEmpty = false) :
    ofText table.toText = .ok table := by
  have hRead :
      ofText ("\n".intercalate
          (table.rows.toList.map
            (fun row => "" ++ row.toText))) =
        .ok table :=
    ofText_indented (by simp) hRows
  simp only [String.empty_append] at hRead
  exact hRead

end Written

/-
  The outcome of reading a text. A text has one list of
  tokens, and it settles what is read. Every table with a row
  is read from what is written for it.
-/
theorem ofText_outcome :
    (∀ text : String, ∃ found,
      (∀ other,
        HasTokens text.toList other ↔ other = found) ∧
      ∀ outcome,
        Reads found outcome ↔ ofText text = outcome) ∧
    ∀ table : Table, table.isEmpty = false →
      ofText table.toText = .ok table := by
  refine ⟨?_, fun table hRows => ofText_toText hRows⟩
  intro text
  refine ⟨tokens text.toList, ?_, fun _ => reads_iff⟩
  intro other
  rw [hasTokens_iff, eq_comm]

/-
  A remark is no row, a character that is no value comes
  before a row of another length, and overlapping rows are
  read back.
-/
theorem ofText_outcome_samples :
    ofText "#2\r\n\t01 1\r\n 2" =
        .error (.malformed
          (.invalidValue (String.singleton '2'))) ∧
      ofText "01 #\n" =
        .error (.malformed
          (.invalidValue (String.singleton '#'))) ∧
      ofText "#2\r\n\t01 1\r\n -" =
        .error (.malformed (.arityMismatch 1 2 1)) ∧
      overlapping.isEmpty = false ∧
      ofText overlapping.toText = .ok overlapping := by
  refine ⟨?_, ?_, ?_, by decide +kernel,
    ofText_outcome.2 overlapping (by decide +kernel)⟩
  · rcases ofText_outcome.1 "#2\r\n\t01 1\r\n 2" with
      ⟨found, hTokens, hReads⟩
    have hFound :=
      (hTokens [['0', '1'], ['1'], ['2']]).1
        (hasTokens_iff.2 (by decide +kernel))
    subst hFound
    exact (hReads _).1 (.foreign rfl)
  · rcases ofText_outcome.1 "01 #\n" with
      ⟨found, hTokens, hReads⟩
    have hFound :=
      (hTokens [['0', '1'], ['#']]).1
        (hasTokens_iff.2 (by decide +kernel))
    subst hFound
    exact (hReads _).1 (.foreign rfl)
  · rcases ofText_outcome.1 "#2\r\n\t01 1\r\n -" with
      ⟨found, hTokens, hReads⟩
    have hFound :=
      (hTokens [['0', '1'], ['1'], ['-']]).1
        (hasTokens_iff.2 (by decide +kernel))
    subst hFound
    have hMisfit :
        IsFirstMisfit
          ([['0', '1'], ['1'], ['-']].map List.length)
          ['0', '1'].length 1 1 :=
      ⟨rfl, by decide, by decide⟩
    exact (hReads _).1 (.misfit rfl rfl hMisfit)

end Table

end TwoLevel
