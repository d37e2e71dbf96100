import Mathlib.Data.List.TakeWhile
import TwoLevel.Text.Blank

/-
  This file says what the words of a text are: the longest
  pieces of it without a blank, in their order. Blanks at the
  ends of a text belong to no word, so trimming takes no word
  away, and a trimmed text begins where the text is no longer
  blank.

  Key definitions include:
    * `HasWords`
    * `opening?`

  Main theorems:
    * `words_append_cons`
    * `hasWords_iff`
    * `words_trim`
    * `HasWords.opening?_eq`
    * `head?_trim`
-/

namespace TwoLevel

namespace Text

------------------------------------------------------------
-- The Words of a Text
------------------------------------------------------------

/-
  A text and its words. A word is not empty and has no blank.
  It cannot be longer: what follows it is a blank or nothing,
  and so is what comes before it.
-/
inductive HasWords :
    List Char → List (List Char) → Prop where
  | nil : HasWords [] []
  | blank
      {c : Char}
      {cs : List Char}
      {ws : List (List Char)}
      (hBlank : isBlank c = true)
      (hRest : HasWords cs ws) :
      HasWords (c :: cs) ws
  | word
      {w cs : List Char}
      {ws : List (List Char)}
      (hNe : w ≠ [])
      (hWord : ∀ c ∈ w, isBlank c = false)
      (hEnd : ∀ c ∈ cs.head?, isBlank c = true)
      (hRest : HasWords cs ws) :
      HasWords (w ++ cs) (w :: ws)

/- Every text has words, be it none at all. -/
theorem exists_hasWords
    (cs : List Char) :
    ∃ ws, HasWords cs ws := by
  induction cs with
  | nil => exact ⟨[], .nil⟩
  | cons c cs ih =>
      rcases ih with ⟨ws, hWords⟩
      cases hc : isBlank c with
      | true => exact ⟨ws, .blank hc hWords⟩
      | false =>
          -- The character begins a word or prolongs one.
          cases hWords with
          | nil =>
              exact ⟨[[c]],
                .word (List.cons_ne_nil c []) (by simpa)
                  (by simp) .nil⟩
          | blank hBlank hRest =>
              exact ⟨[c] :: ws,
                .word (List.cons_ne_nil c []) (by simpa)
                  (by simpa) (.blank hBlank hRest)⟩
          | @word w cs ws hNe hWord hEnd hRest =>
              exact ⟨(c :: w) :: ws,
                .word (List.cons_ne_nil c w)
                  (List.forall_mem_cons.2 ⟨hc, hWord⟩)
                  hEnd hRest⟩

------------------------------------------------------------
-- Words and Blanks
------------------------------------------------------------

@[simp] theorem words_nil :
    words [] = [] := by
  simp [words]

/- A blank keeps the words before it and after it apart. -/
theorem words_append_cons
    {c : Char}
    (hBlank : isBlank c = true)
    (before after : List Char) :
    words (before ++ c :: after) =
      words before ++ words after := by
  simp only [words,
    List.splitOnP_append_cons before after hBlank,
    List.filter_append]

theorem words_cons_of_blank
    {c : Char}
    (hBlank : isBlank c = true)
    (cs : List Char) :
    words (c :: cs) = words cs := by
  simpa using words_append_cons hBlank [] cs

/- A text without blanks is a single word. -/
theorem words_eq_singleton
    {w : List Char}
    (hNe : w ≠ [])
    (hWord : ∀ c ∈ w, isBlank c = false) :
    words w = [w] := by
  rw [words, List.splitOnP_eq_singleton hWord]
  simpa using hNe

theorem words_append_of_word
    {w cs : List Char}
    (hNe : w ≠ [])
    (hWord : ∀ c ∈ w, isBlank c = false)
    (hEnd : ∀ c ∈ cs.head?, isBlank c = true) :
    words (w ++ cs) = w :: words cs := by
  cases cs with
  | nil =>
      rw [List.append_nil, words_nil,
        words_eq_singleton hNe hWord]
  | cons c cs =>
      have hBlank : isBlank c = true := hEnd c rfl
      rw [words_append_cons hBlank,
        words_eq_singleton hNe hWord,
        words_cons_of_blank hBlank, List.singleton_append]

/- Cutting a text at its blanks finds its words. -/
theorem hasWords_iff
    {cs : List Char}
    {ws : List (List Char)} :
    HasWords cs ws ↔ words cs = ws := by
  have hUnique :
      ∀ {cs ws}, HasWords cs ws → words cs = ws := by
    intro cs ws h
    induction h with
    | nil => exact words_nil
    | blank hBlank hRest ih =>
        rw [words_cons_of_blank hBlank, ih]
    | word hNe hWord hEnd hRest ih =>
        rw [words_append_of_word hNe hWord hEnd, ih]
  constructor
  · exact hUnique
  · intro hEq
    rcases exists_hasWords cs with ⟨others, hWords⟩
    rw [← hEq, hUnique hWords]
    exact hWords

------------------------------------------------------------
-- Trimming
------------------------------------------------------------

theorem words_append_of_blanks
    {blanks : List Char}
    (hBlanks : ∀ c ∈ blanks, isBlank c = true)
    (cs : List Char) :
    words (blanks ++ cs) = words cs := by
  induction blanks with
  | nil => rfl
  | cons c blanks ih =>
      rcases List.forall_mem_cons.1 hBlanks with
        ⟨hc, hRest⟩
      rw [List.cons_append, words_cons_of_blank hc, ih hRest]

theorem words_append_blanks
    {blanks : List Char}
    (hBlanks : ∀ c ∈ blanks, isBlank c = true)
    (cs : List Char) :
    words (cs ++ blanks) = words cs := by
  cases blanks with
  | nil => rw [List.append_nil]
  | cons c blanks =>
      rcases List.forall_mem_cons.1 hBlanks with
        ⟨hc, hRest⟩
      have hNone := words_append_of_blanks hRest []
      rw [List.append_nil, words_nil] at hNone
      rw [words_append_cons hc, hNone, List.append_nil]

/- Trimming takes away blanks at either end only. -/
theorem exists_append_trim_append
    (cs : List Char) :
    ∃ before after,
      cs = before ++ trim cs ++ after ∧
        (∀ c ∈ before, isBlank c = true) ∧
        ∀ c ∈ after, isBlank c = true := by
  let rest := cs.dropWhile isBlank
  refine ⟨cs.takeWhile isBlank,
    (rest.reverse.takeWhile isBlank).reverse, ?_,
    fun c hc => List.mem_takeWhile_imp hc,
    fun c hc =>
      List.mem_takeWhile_imp (List.mem_reverse.1 hc)⟩
  rw [trim, List.append_assoc, ← List.reverse_append,
    List.takeWhile_append_dropWhile, List.reverse_reverse,
    List.takeWhile_append_dropWhile]

/- Trimming takes no word away. -/
theorem words_trim
    (cs : List Char) :
    words (trim cs) = words cs := by
  rcases exists_append_trim_append cs with
    ⟨before, after, hEq, hBefore, hAfter⟩
  calc
    words (trim cs) = words (before ++ trim cs) :=
      (words_append_of_blanks hBefore (trim cs)).symm
    _ = words (before ++ trim cs ++ after) :=
      (words_append_blanks hAfter _).symm
    _ = words cs := congrArg words hEq.symm

/- The first character of a text that is no blank. -/
def opening?
    (cs : List Char) : Option Char :=
  cs.find? (fun c => !isBlank c)

theorem opening?_append_of_blanks
    {blanks : List Char}
    (hBlanks : ∀ c ∈ blanks, isBlank c = true)
    (cs : List Char) :
    opening? (blanks ++ cs) = opening? cs := by
  have hNone : blanks.find? (fun c => !isBlank c) = none := by
    rw [List.find?_eq_none]
    intro c hc
    simp [hBlanks c hc]
  rw [opening?, List.find?_append, hNone, Option.none_or,
    opening?]

theorem opening?_dropWhile
    (cs : List Char) :
    opening? (cs.dropWhile isBlank) =
      (cs.dropWhile isBlank).head? := by
  induction cs with
  | nil => rfl
  | cons c cs ih =>
      cases hc : isBlank c with
      | true => rw [List.dropWhile_cons_of_pos hc, ih]
      | false => simp [opening?, hc]

/- A text that is not blank begins with its first word. -/
theorem HasWords.opening?_eq
    {cs : List Char}
    {ws : List (List Char)}
    (h : HasWords cs ws) :
    opening? cs = ws.head?.bind List.head? := by
  induction h with
  | nil => rfl
  | blank hBlank hRest ih =>
      rw [← ih]
      exact List.find?_cons_of_neg (by simp [hBlank])
  | @word w cs ws hNe hWord hEnd hRest ih =>
      cases w with
      | nil => exact absurd rfl hNe
      | cons c w =>
          have hc := hWord c List.mem_cons_self
          exact List.find?_cons_of_pos (by simp [hc])

/- A trimmed text begins where the text is not blank. -/
theorem head?_trim
    (cs : List Char) :
    (trim cs).head? = opening? cs := by
  have hRest :
      opening? cs = (cs.dropWhile isBlank).head? := by
    rw [← opening?_dropWhile,
      ← opening?_append_of_blanks
        (fun c hc => List.mem_takeWhile_imp hc)
        (cs.dropWhile isBlank),
      List.takeWhile_append_dropWhile]
  rw [hRest, trim]
  cases hDrop : cs.dropWhile isBlank with
  | nil => rfl
  | cons c rest =>
      have hc : isBlank c = false := by
        have hFirst := opening?_dropWhile cs
        rw [hDrop, List.head?_cons] at hFirst
        simpa using List.find?_some hFirst
      rw [List.reverse_cons, List.dropWhile_append]
      split
      · simp [hc]
      · simp

end Text

end TwoLevel
