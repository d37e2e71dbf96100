/-
  This file defines blank characters and how a text is cut
  into lines and words.

  Key definitions include:
    * `isBlank`
    * `trim`
    * `lines`
    * `words`

  Main theorems:
    * `mem_words_ne_nil`
    * `trim_eq_self`
-/

namespace TwoLevel

namespace Text

------------------------------------------------------------
-- Blank Characters
------------------------------------------------------------

/-
  The characters that separate words: the line and tab
  controls, the space, and the spaces and separators beyond
  the first 128 characters.
-/
def isBlank
    (c : Char) : Bool :=
  (0x9 ≤ c.toNat && c.toNat ≤ 0xd) ||
    c.toNat == 0x20 ||
    c.toNat == 0x85 ||
    c.toNat == 0xa0 ||
    c.toNat == 0x1680 ||
    (0x2000 ≤ c.toNat && c.toNat ≤ 0x200a) ||
    c.toNat == 0x2028 ||
    c.toNat == 0x2029 ||
    c.toNat == 0x202f ||
    c.toNat == 0x205f ||
    c.toNat == 0x3000

------------------------------------------------------------
-- Cutting a Text
------------------------------------------------------------

/- A text without the blanks at either end. -/
def trim
    (cs : List Char) : List Char :=
  ((cs.dropWhile isBlank).reverse.dropWhile
    isBlank).reverse

/-
  A line without the carriage return that belongs to its end,
  if there is one.
-/
def dropReturn
    (line : List Char) : List Char :=
  if line.getLast? = some '\r' then line.dropLast else line

/-
  The lines of a text. A line ends at a line feed, and a
  carriage return right before it is part of the end. What
  follows the last end is a line too, unless it is empty.
-/
def lines
    (cs : List Char) : List (List Char) :=
  let pieces := cs.splitOn '\n'
  pieces.dropLast.map dropReturn ++
    pieces.getLast?.toList.filter (!·.isEmpty)

/- The longest blank-free pieces of a text, in order. -/
def words
    (cs : List Char) : List (List Char) :=
  (cs.splitOnP isBlank).filter (!·.isEmpty)

/- No word is empty. -/
theorem mem_words_ne_nil
    {cs w : List Char}
    (h : w ∈ words cs) :
    w ≠ [] := by
  have := (List.mem_filter.1 h).2
  simpa using this

/- Trimming leaves a text without blanks as it is. -/
theorem trim_eq_self
    {cs : List Char}
    (h : ∀ c ∈ cs, isBlank c = false) :
    trim cs = cs := by
  have hDrop :
      ∀ ds : List Char,
        (∀ c ∈ ds, isBlank c = false) →
          ds.dropWhile isBlank = ds := by
    intro ds hds
    cases ds with
    | nil => rfl
    | cons d ds =>
        have := hds d List.mem_cons_self
        simp [List.dropWhile, this]
  unfold trim
  rw [hDrop cs h, hDrop cs.reverse
    (fun c hc => h c (List.mem_reverse.1 hc)),
    List.reverse_reverse]

end Text

end TwoLevel
