import Mathlib.Data.List.Basic
import TwoLevel.Text.Blank

/-
  This file says what the lines of a text are. A line ends at
  a line feed, or at a carriage return and a line feed. The
  last line need not be ended, and what follows the last end
  is a line only if there is something.

  Key definitions include:
    * `HasLines`
    * `IsPlainLine`
    * `IsUnbroken`

  Main theorems:
    * `lines_append_cons`
    * `hasLines_iff`
    * `lines_flatMap_append`
    * `lines_intercalate`
-/

namespace TwoLevel

namespace Text

------------------------------------------------------------
-- The Lines of a Text
------------------------------------------------------------

/-
  A text and its lines. A carriage return is part of the end
  of a line when a line feed follows it, and part of the line
  everywhere else.
-/
inductive HasLines :
    List Char → List (List Char) → Prop where
  | nil : HasLines [] []
  | last
      {line : List Char}
      (hNe : line ≠ [])
      (hFeed : '\n' ∉ line) :
      HasLines line [line]
  | feed
      {line rest : List Char}
      {ls : List (List Char)}
      (hFeed : '\n' ∉ line)
      (hReturn : line.getLast? ≠ some '\r')
      (hRest : HasLines rest ls) :
      HasLines (line ++ '\n' :: rest) (line :: ls)
  | returnFeed
      {line rest : List Char}
      {ls : List (List Char)}
      (hFeed : '\n' ∉ line)
      (hRest : HasLines rest ls) :
      HasLines (line ++ '\r' :: '\n' :: rest) (line :: ls)

/- Every text has lines, be it none at all. -/
theorem exists_hasLines
    (cs : List Char) :
    ∃ ls, HasLines cs ls := by
  induction cs with
  | nil => exact ⟨[], .nil⟩
  | cons c cs ih =>
      rcases ih with ⟨ls, hLines⟩
      by_cases hc : c = '\n'
      · subst hc
        exact ⟨[] :: ls,
          .feed List.not_mem_nil (by decide) hLines⟩
      have hMem :
          ∀ {line : List Char}, '\n' ∉ line →
            '\n' ∉ c :: line := by
        intro line hLine
        simpa [Ne.symm hc] using hLine
      -- The character becomes part of the first line.
      cases hLines with
      | nil =>
          exact ⟨[[c]],
            .last (List.cons_ne_nil c []) (hMem (by simp))⟩
      | last hNe hFeed =>
          exact ⟨[c :: cs],
            .last (List.cons_ne_nil c cs) (hMem hFeed)⟩
      | @returnFeed line rest ls hFeed hRest =>
          exact ⟨(c :: line) :: ls,
            .returnFeed (hMem hFeed) hRest⟩
      | @feed line rest ls hFeed hReturn hRest =>
          cases line with
          | cons d line =>
              refine ⟨(c :: d :: line) :: ls,
                .feed (hMem hFeed) ?_ hRest⟩
              rwa [List.getLast?_cons_cons]
          | nil =>
              by_cases hReturn' : c = '\r'
              · subst hReturn'
                exact ⟨[] :: ls,
                  .returnFeed List.not_mem_nil hRest⟩
              · exact ⟨[c] :: ls,
                  .feed (hMem hFeed) (by simpa) hRest⟩

------------------------------------------------------------
-- Finding the Lines
------------------------------------------------------------

@[simp] theorem lines_nil :
    lines [] = [] := by
  simp [lines]

theorem lines_eq_singleton
    {line : List Char}
    (hNe : line ≠ [])
    (hFeed : '\n' ∉ line) :
    lines line = [line] := by
  rw [lines, List.splitOn_eq_singleton hFeed]
  simpa using hNe

/- The first line feed ends the first line. -/
theorem lines_append_cons
    {line : List Char}
    (hFeed : '\n' ∉ line)
    (rest : List Char) :
    lines (line ++ '\n' :: rest) =
      dropReturn line :: lines rest := by
  have hRest := List.splitOn_ne_nil '\n' rest
  rw [lines, lines,
    List.splitOn_append_cons_self_of_not_mem hFeed]
  simp only [List.dropLast_cons_of_ne_nil hRest,
    List.getLast?_cons_of_ne_nil hRest, List.map_cons,
    List.cons_append]

theorem dropReturn_of_getLast?_ne
    {line : List Char}
    (hReturn : line.getLast? ≠ some '\r') :
    dropReturn line = line :=
  if_neg hReturn

theorem dropReturn_concat
    (line : List Char) :
    dropReturn (line ++ ['\r']) = line := by
  simp [dropReturn]

/- Cutting a text at its line feeds finds its lines. -/
theorem hasLines_iff
    {cs : List Char}
    {ls : List (List Char)} :
    HasLines cs ls ↔ lines cs = ls := by
  have hUnique :
      ∀ {cs ls}, HasLines cs ls → lines cs = ls := by
    intro cs ls h
    induction h with
    | nil => exact lines_nil
    | last hNe hFeed => exact lines_eq_singleton hNe hFeed
    | feed hFeed hReturn hRest ih =>
        rw [lines_append_cons hFeed,
          dropReturn_of_getLast?_ne hReturn, ih]
    | @returnFeed line rest ls hFeed hRest ih =>
        have hMem : '\n' ∉ line ++ ['\r'] := by
          simpa using hFeed
        have hSplit := lines_append_cons hMem rest
        rw [List.append_assoc, List.singleton_append,
          dropReturn_concat, ih] at hSplit
        exact hSplit
  constructor
  · exact hUnique
  · intro hEq
    rcases exists_hasLines cs with ⟨others, hLines⟩
    rw [← hEq, hUnique hLines]
    exact hLines

------------------------------------------------------------
-- Printed Lines
------------------------------------------------------------

/- A line that is found again where it was printed. -/
structure IsPlainLine
    (line : List Char) : Prop where
  no_feed : '\n' ∉ line
  no_return : line.getLast? ≠ some '\r'

/- A text that neither ends a line nor prepares to. -/
def IsUnbroken
    (cs : List Char) : Prop :=
  ∀ c ∈ cs, c ≠ '\n' ∧ c ≠ '\r'

instance
    (cs : List Char) :
    Decidable (IsUnbroken cs) :=
  List.decidableBAll (fun c => c ≠ '\n' ∧ c ≠ '\r') cs

@[simp] theorem isUnbroken_append_iff
    {cs ds : List Char} :
    IsUnbroken (cs ++ ds) ↔
      IsUnbroken cs ∧ IsUnbroken ds :=
  List.forall_mem_append

theorem IsUnbroken.isPlainLine
    {line : List Char}
    (h : IsUnbroken line) :
    IsPlainLine line where
  no_feed := fun hMem => (h _ hMem).1 rfl
  no_return := fun hLast =>
    (h _ (List.mem_of_getLast? hLast)).2 rfl

/- Numbers are printed in digits. -/
@[simp] theorem isUnbroken_repr
    (n : Nat) :
    IsUnbroken n.repr.toList := by
  intro c hc
  rw [Nat.toList_repr] at hc
  have hDigit := Nat.isDigit_of_mem_toDigits
    (by decide) (by decide) hc
  constructor
  · rintro rfl
    exact absurd hDigit (by decide)
  · rintro rfl
    exact absurd hDigit (by decide)

/- Printing plain lines with their ends keeps them apart. -/
theorem lines_flatMap_append
    {ls : List (List Char)}
    (h : ∀ line ∈ ls, IsPlainLine line)
    (rest : List Char) :
    lines (ls.flatMap (· ++ ['\n']) ++ rest) =
      ls ++ lines rest := by
  induction ls with
  | nil => rfl
  | cons line ls ih =>
      rcases List.forall_mem_cons.1 h with ⟨hLine, hls⟩
      rw [List.flatMap_cons, List.append_assoc,
        List.append_assoc, List.singleton_append,
        lines_append_cons hLine.no_feed,
        dropReturn_of_getLast?_ne hLine.no_return, ih hls,
        List.cons_append]

/- So does printing line feeds between them. -/
theorem lines_intercalate
    {ls : List (List Char)}
    (h : ∀ line ∈ ls, IsPlainLine line)
    (hNe : ∀ line ∈ ls, line ≠ []) :
    lines (['\n'].intercalate ls) = ls := by
  induction ls with
  | nil => exact lines_nil
  | cons line ls ih =>
      rcases List.forall_mem_cons.1 h with ⟨hLine, hls⟩
      rcases List.forall_mem_cons.1 hNe with
        ⟨hLineNe, hlsNe⟩
      cases ls with
      | nil =>
          rw [List.intercalate_singleton,
            lines_eq_singleton hLineNe hLine.no_feed]
      | cons next ls =>
          rw [List.intercalate_cons_cons, List.append_assoc,
            List.singleton_append,
            lines_append_cons hLine.no_feed,
            dropReturn_of_getLast?_ne hLine.no_return,
            ih hls hlsNe]

end Text

end TwoLevel
