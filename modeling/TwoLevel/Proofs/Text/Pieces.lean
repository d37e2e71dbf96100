import Mathlib.Data.List.Basic

/-
  This file cuts a text at each place where a separator
  stands, from left to right. Texts that are joined by a mark
  between two spaces are found again, unless one of them has
  the mark itself.

  Key definitions include:
    * `pieces`
    * `spaced`

  Main theorems:
    * `pieces_append_spaced`
    * `pieces_eq_singleton`
    * `pieces_intercalate`
-/

namespace TwoLevel

namespace Text

/-
  The pieces of a text between its separators, be they empty.
  Separators do not overlap: the first one on the left counts.
-/
def pieces
    (separator : List Char) :
    List Char → List (List Char)
  | [] => [[]]
  | c :: cs =>
      if separator.isPrefixOf (c :: cs) then
        [] ::
          pieces separator (cs.drop (separator.length - 1))
      else
        (pieces separator cs).modifyHead (c :: ·)
  termination_by cs => cs.length
  decreasing_by
    · rw [List.length_drop, List.length_cons]
      omega
    · exact Nat.lt_succ_self cs.length

/- A mark with a space on either side. -/
def spaced
    (mark : Char) : List Char :=
  [' ', mark, ' ']

section Pieces

variable {mark : Char}

/-
  A separator does not begin in a text without its mark, nor
  with the last character of one.
-/
private theorem not_spaced_isPrefixOf
    {c : Char}
    {cs rest : List Char}
    (hFree : mark ∉ c :: cs)
    (hRest : rest.head? ≠ some mark) :
    (spaced mark).isPrefixOf (c :: (cs ++ rest)) ≠ true := by
  intro hPrefix
  rcases List.isPrefixOf_iff_prefix.1 hPrefix with
    ⟨tail, hTail⟩
  have hSecond : mark :: ' ' :: tail = cs ++ rest :=
    (List.cons.inj hTail).2
  cases cs with
  | nil =>
      rw [List.nil_append] at hSecond
      rw [← hSecond] at hRest
      exact hRest rfl
  | cons d cs =>
      rw [List.cons_append] at hSecond
      rw [(List.cons.inj hSecond).1] at hFree
      exact hFree
        (List.mem_cons_of_mem c List.mem_cons_self)

/- The first separator ends the first piece. -/
theorem pieces_append_spaced
    (hMark : mark ≠ ' ')
    {piece : List Char}
    (hFree : mark ∉ piece)
    (rest : List Char) :
    pieces (spaced mark) (piece ++ (spaced mark ++ rest)) =
      piece :: pieces (spaced mark) rest := by
  induction piece with
  | nil =>
      have hPrefix :
          (spaced mark).isPrefixOf
            (' ' :: mark :: ' ' :: rest) = true := by
        rw [List.isPrefixOf_iff_prefix]
        exact ⟨rest, rfl⟩
      change pieces (spaced mark)
        (' ' :: mark :: ' ' :: rest) = _
      rw [pieces, if_pos hPrefix]
      rfl
  | cons c cs ih =>
      have hSpace :
          (spaced mark ++ rest).head? ≠ some mark := by
        intro hHead
        exact hMark (Option.some.inj hHead).symm
      have hcs : mark ∉ cs := fun hMem =>
        hFree (List.mem_cons_of_mem c hMem)
      rw [List.cons_append, pieces,
        if_neg (not_spaced_isPrefixOf hFree hSpace),
        ih hcs, List.modifyHead_cons]

/- A text without the mark is in one piece. -/
theorem pieces_eq_singleton
    {piece : List Char}
    (hFree : mark ∉ piece) :
    pieces (spaced mark) piece = [piece] := by
  induction piece with
  | nil => rw [pieces]
  | cons c cs ih =>
      have hPrefix :
          (spaced mark).isPrefixOf (c :: cs) ≠ true := by
        rw [← List.append_nil cs]
        exact not_spaced_isPrefixOf hFree nofun
      have hcs : mark ∉ cs := fun hMem =>
        hFree (List.mem_cons_of_mem c hMem)
      rw [pieces, if_neg hPrefix, ih hcs,
        List.modifyHead_cons]

/- Texts without the mark are kept apart by it. -/
theorem pieces_intercalate
    (hMark : mark ≠ ' ')
    {texts : List (List Char)}
    (hNe : texts ≠ [])
    (hFree : ∀ text ∈ texts, mark ∉ text) :
    pieces (spaced mark) ((spaced mark).intercalate texts) =
      texts := by
  induction texts with
  | nil => exact absurd rfl hNe
  | cons text texts ih =>
      rcases List.forall_mem_cons.1 hFree with
        ⟨hText, hTexts⟩
      cases texts with
      | nil =>
          rw [List.intercalate_singleton,
            pieces_eq_singleton hText]
      | cons next texts =>
          rw [List.intercalate_cons_cons, List.append_assoc,
            pieces_append_spaced hMark hText,
            ih (List.cons_ne_nil next texts) hTexts]

/- What neither side has, the joined text does not have. -/
theorem not_mem_intercalate
    {c : Char}
    {separator : List Char}
    {texts : List (List Char)}
    (hSeparator : c ∉ separator)
    (hTexts : ∀ text ∈ texts, c ∉ text) :
    c ∉ separator.intercalate texts := by
  induction texts with
  | nil => exact List.not_mem_nil
  | cons text texts ih =>
      rcases List.forall_mem_cons.1 hTexts with
        ⟨hText, hRest⟩
      cases texts with
      | nil =>
          rw [List.intercalate_singleton]
          exact hText
      | cons next texts =>
          rw [List.intercalate_cons_cons, List.mem_append,
            List.mem_append, not_or, not_or]
          exact ⟨⟨hText, hSeparator⟩, ih hRest⟩

end Pieces

end Text

end TwoLevel
