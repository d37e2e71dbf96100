import TwoLevel.Proofs.Text.Lines
import TwoLevel.Proofs.Text.Words
import TwoLevel.Table

/-
  This file says what the tokens of a text are: the words of
  all its lines but the remarks, line after line. A line is a
  remark when the first character in it that is no blank is
  the number sign.

  Key definitions include:
    * `HasTokens`

  Main theorems:
    * `hasTokens_iff`
    * `words_eq_flatMap_lines`
    * `tokens_eq_words`
    * `lines_intercalate_rows`
    * `tokens_intercalate_rows`
-/

namespace TwoLevel

namespace Table

------------------------------------------------------------
-- The Tokens of a Text
------------------------------------------------------------

/- A line that begins with the number sign, blanks aside. -/
def OpensRemark
    (line : List Char) : Prop :=
  Text.opening? line = some '#'

/- The tokens of a list of lines. -/
inductive LinesHaveTokens :
    List (List Char) → List (List Char) → Prop where
  | nil : LinesHaveTokens [] []
  | remark
      {line : List Char}
      {lines tokens : List (List Char)}
      (hRemark : OpensRemark line)
      (hRest : LinesHaveTokens lines tokens) :
      LinesHaveTokens (line :: lines) tokens
  | rows
      {line : List Char}
      {lines words tokens : List (List Char)}
      (hRows : ¬ OpensRemark line)
      (hWords : Text.HasWords line words)
      (hRest : LinesHaveTokens lines tokens) :
      LinesHaveTokens (line :: lines) (words ++ tokens)

/- A text has the tokens of its lines. -/
def HasTokens
    (text : List Char)
    (tokens : List (List Char)) : Prop :=
  ∃ lines, Text.HasLines text lines ∧
    LinesHaveTokens lines tokens

------------------------------------------------------------
-- Finding the Tokens
------------------------------------------------------------

/- A line is told to be a remark once it is trimmed. -/
theorem isRemark_trim_iff
    {line : List Char} :
    isRemark (Text.trim line) = true ↔ OpensRemark line := by
  rw [isRemark, Text.head?_trim, beq_iff_eq, OpensRemark]

/- The words of the given lines outside the remarks. -/
def lineTokens
    (lines : List (List Char)) : List (List Char) :=
  ((lines.map Text.trim).filter
    (fun line => !isRemark line)).flatMap Text.words

theorem lineTokens_cons_of_remark
    {line : List Char}
    (hRemark : OpensRemark line)
    (lines : List (List Char)) :
    lineTokens (line :: lines) = lineTokens lines := by
  simp [lineTokens, isRemark_trim_iff.2 hRemark]

theorem lineTokens_cons_of_rows
    {line : List Char}
    (hRows : ¬ OpensRemark line)
    (lines : List (List Char)) :
    lineTokens (line :: lines) =
      Text.words line ++ lineTokens lines := by
  have hLine : isRemark (Text.trim line) = false := by
    rw [← Bool.not_eq_true, isRemark_trim_iff]
    exact hRows
  simp [lineTokens, hLine, Text.words_trim]

theorem linesHaveTokens_iff
    {lines tokens : List (List Char)} :
    LinesHaveTokens lines tokens ↔
      lineTokens lines = tokens := by
  constructor
  · intro h
    induction h with
    | nil => rfl
    | remark hRemark hRest ih =>
        rw [lineTokens_cons_of_remark hRemark, ih]
    | rows hRows hWords hRest ih =>
        rw [lineTokens_cons_of_rows hRows,
          Text.hasWords_iff.1 hWords, ih]
  · rintro rfl
    induction lines with
    | nil => exact .nil
    | cons line lines ih =>
        by_cases hRemark : OpensRemark line
        · rw [lineTokens_cons_of_remark hRemark]
          exact .remark hRemark ih
        · rw [lineTokens_cons_of_rows hRemark]
          exact .rows hRemark (Text.hasWords_iff.2 rfl) ih

/- Every text has one list of tokens, the one that is read. -/
theorem hasTokens_iff
    {text : List Char}
    {found : List (List Char)} :
    HasTokens text found ↔ tokens text = found := by
  constructor
  · intro h
    rcases h with ⟨lines, hLines, hTokens⟩
    rw [← linesHaveTokens_iff.1 hTokens,
      ← Text.hasLines_iff.1 hLines]
    rfl
  · intro hEq
    exact ⟨Text.lines text, Text.hasLines_iff.2 rfl,
      linesHaveTokens_iff.2 hEq⟩

theorem mem_tokens_ne_nil
    {text token : List Char}
    (h : token ∈ tokens text) :
    token ≠ [] := by
  rcases List.mem_flatMap.1 h with ⟨line, _, hWord⟩
  exact Text.mem_words_ne_nil hWord

end Table

------------------------------------------------------------
-- Texts Without Remarks
------------------------------------------------------------

/- No word goes beyond the end of its line. -/
theorem Text.words_eq_flatMap_lines
    (cs : List Char) :
    words cs = (lines cs).flatMap words := by
  rcases exists_hasLines cs with ⟨ls, hLines⟩
  rw [hasLines_iff.1 hLines]
  induction hLines with
  | nil => exact words_nil
  | @last line hNe hFeed =>
      rw [List.flatMap_singleton]
  | @feed line rest ls hFeed hReturn hRest ih =>
      rw [words_append_cons rfl, ih, List.flatMap_cons]
  | @returnFeed line rest ls hFeed hRest ih =>
      rw [words_append_cons rfl, words_cons_of_blank rfl, ih,
        List.flatMap_cons]

namespace Table

/-
  A text in which no word begins with the number sign has no
  remarks, so all of its words are tokens.
-/
theorem tokens_eq_words
    {text : List Char}
    (h : ∀ word ∈ Text.words text, word.head? ≠ some '#') :
    tokens text = Text.words text := by
  rw [Text.words_eq_flatMap_lines] at h ⊢
  show lineTokens (Text.lines text) = _
  generalize Text.lines text = lines at h ⊢
  induction lines with
  | nil => rfl
  | cons line lines ih =>
      rw [List.flatMap_cons, List.forall_mem_append] at h
      have hRows : ¬ OpensRemark line := by
        intro hRemark
        have hWords : Text.HasWords line (Text.words line) :=
          Text.hasWords_iff.2 rfl
        rw [OpensRemark, hWords.opening?_eq,
          Option.bind_eq_some_iff] at hRemark
        rcases hRemark with ⟨word, hWord, hSign⟩
        exact h.1 word (List.mem_of_mem_head? hWord) hSign
      rw [lineTokens_cons_of_rows hRows, ih h.2,
        List.flatMap_cons]

end Table

------------------------------------------------------------
-- Printed Rows
------------------------------------------------------------

namespace Row

section Printed

variable {row : Row}

/- Rows are written without blanks and number signs. -/
theorem mem_toChars
    {c : Char}
    (h : c ∈ row.toChars) :
    c = '0' ∨ c = '1' ∨ c = '-' := by
  rcases List.mem_map.1 h with ⟨v, _, rfl⟩
  cases v <;> simp [Value.toChar]

theorem isBlank_of_mem_toChars
    {c : Char}
    (h : c ∈ row.toChars) :
    Text.isBlank c = false := by
  rcases mem_toChars h with rfl | rfl | rfl <;> decide

@[simp] theorem isUnbroken_toChars
    (row : Row) :
    Text.IsUnbroken row.toChars := by
  intro c hc
  rcases mem_toChars hc with rfl | rfl | rfl <;> decide

@[simp] theorem length_toChars
    (row : Row) :
    row.toChars.length = row.arity :=
  List.length_map _

theorem toChars_ne_nil
    (h : 0 < row.arity) :
    row.toChars ≠ [] :=
  List.ne_nil_of_length_pos (by rwa [length_toChars])

end Printed

end Row

namespace Table

section Printed

variable {indent : List Char}
variable {row : Row}

/- An indented row is a line of its own. -/
theorem isPlainLine_indented
    (hIndent : ∀ c ∈ indent, c = ' ')
    (row : Row) :
    Text.IsPlainLine (indent ++ row.toChars) := by
  apply Text.IsUnbroken.isPlainLine
  rw [Text.isUnbroken_append_iff]
  refine ⟨?_, row.isUnbroken_toChars⟩
  intro c hc
  rw [hIndent c hc]
  decide

theorem lineTokens_cons_indented
    (hIndent : ∀ c ∈ indent, c = ' ')
    (hRow : 0 < row.arity)
    (lines : List (List Char)) :
    lineTokens ((indent ++ row.toChars) :: lines) =
      row.toChars :: lineTokens lines := by
  have hBlanks : ∀ c ∈ indent, Text.isBlank c = true := by
    intro c hc
    rw [hIndent c hc]
    rfl
  have hRows : ¬ OpensRemark (indent ++ row.toChars) := by
    rw [OpensRemark, Text.opening?_append_of_blanks hBlanks]
    intro hOpening
    have hMem := List.mem_of_find?_eq_some hOpening
    exact absurd (Row.mem_toChars hMem) (by decide)
  rw [lineTokens_cons_of_rows hRows,
    Text.words_append_of_blanks hBlanks,
    Text.words_eq_singleton (Row.toChars_ne_nil hRow)
      (fun c hc => Row.isBlank_of_mem_toChars hc),
    List.singleton_append]

/- Rows printed one a line are lines of their own. -/
theorem lines_intercalate_rows
    {rows : List Row}
    (hIndent : ∀ c ∈ indent, c = ' ')
    (hRows : ∀ row ∈ rows, 0 < row.arity) :
    Text.lines (['\n'].intercalate
        (rows.map (fun row => indent ++ row.toChars))) =
      rows.map (fun row => indent ++ row.toChars) := by
  apply Text.lines_intercalate
  · intro line hLine
    rcases List.mem_map.1 hLine with ⟨row, hRow, rfl⟩
    exact isPlainLine_indented hIndent row
  · intro line hLine
    rcases List.mem_map.1 hLine with ⟨row, hRow, rfl⟩
    exact List.append_ne_nil_of_right_ne_nil _
      (Row.toChars_ne_nil (hRows row hRow))

/- They are the tokens read back. -/
theorem tokens_intercalate_rows
    {rows : List Row}
    (hIndent : ∀ c ∈ indent, c = ' ')
    (hRows : ∀ row ∈ rows, 0 < row.arity) :
    tokens (['\n'].intercalate
        (rows.map (fun row => indent ++ row.toChars))) =
      rows.map Row.toChars := by
  show lineTokens (Text.lines _) = _
  rw [lines_intercalate_rows hIndent hRows]
  induction rows with
  | nil => rfl
  | cons row rows ih =>
      rcases List.forall_mem_cons.1 hRows with
        ⟨hRow, hRest⟩
      rw [List.map_cons, lineTokens_cons_indented hIndent hRow,
        ih hRest, List.map_cons]

end Printed

end Table

end TwoLevel
