import TwoLevel.BitSet.Basic

/-
  This file lists the members of a bit set one by one. A
  cursor stands at a word and keeps the positions of it that
  have not been listed. It goes on to the next word when none
  is left. Clear positions are never visited.

  Key definitions include:
    * `BitSet.Cursor`
    * `BitSet.Cursor.next`
    * `BitSet.Cursor.collect`
    * `BitSet.members`
    * `BitSet.retain`

  Main theorems:
    * `left_advance_lt`
    * `left_lt_of_next`
-/

namespace TwoLevel

namespace BitSet

/-
  A place in the listing of a set: the words, the number of
  the current word, and the rest of that word.
-/
structure Cursor where
  words : Array UInt64
  place : Nat
  current : UInt64
  deriving DecidableEq

namespace Cursor

/- The place before the least member of a set. -/
def ofSet
    (set : BitSet) : Cursor where
  words := set.words
  place := 0
  current := set.words[0]?.getD 0

/- The place before the lowest position of the next word. -/
def advance
    (cursor : Cursor)
    (h : cursor.place + 1 < cursor.words.size) : Cursor where
  words := cursor.words
  place := cursor.place + 1
  current := cursor.words[cursor.place + 1]

/- The place after the lowest position of the current word. -/
def drop
    (cursor : Cursor) : Cursor where
  words := cursor.words
  place := cursor.place
  current := Word.dropLeast cursor.current

/-
  The member at the current place, and the place after it. A
  cursor behind the last word stays behind it.
-/
def next
    (cursor : Cursor) : Option Nat × Cursor :=
  if cursor.current ≠ 0 then
    (some (64 * cursor.place + Word.least cursor.current),
      cursor.drop)
  else if h : cursor.place + 1 < cursor.words.size then
    (cursor.advance h).next
  else
    (none, { cursor with place := cursor.place + 1 })
  termination_by cursor.words.size - cursor.place
  decreasing_by
    show cursor.words.size - (cursor.place + 1) < _
    omega

------------------------------------------------------------
-- Termination
------------------------------------------------------------

/-
  A bound for what is left to list: the positions of the
  current word from its lowest on, and each word to come.
-/
def left
    (cursor : Cursor) : Nat :=
  65 * (cursor.words.size - cursor.place) +
    (64 - Word.least cursor.current)

theorem left_drop_lt
    {cursor : Cursor}
    (h : cursor.current ≠ 0) :
    cursor.drop.left < cursor.left := by
  have hLt := Word.least_lt h
  have hNext := Word.least_lt_least_dropLeast h
  unfold left drop
  dsimp only
  omega

theorem left_advance_lt
    {cursor : Cursor}
    (h : cursor.place + 1 < cursor.words.size) :
    (cursor.advance h).left < cursor.left := by
  unfold left advance
  dsimp only
  omega

/- Less is left to list after a member. -/
theorem left_lt_of_next
    {cursor after : Cursor}
    {index : Nat}
    (h : cursor.next = (some index, after)) :
    after.left < cursor.left := by
  fun_induction next cursor with
  | case1 cursor hNe =>
      cases h
      exact left_drop_lt hNe
  | case2 cursor hZero hLt ih =>
      have hAfter := ih h
      have hCursor := left_advance_lt hLt
      omega
  | case3 cursor hZero hLast => cases h

------------------------------------------------------------
-- Listing
------------------------------------------------------------

/- What is left to list, in the order of the listing. -/
def collect
    (cursor : Cursor) : List Nat :=
  match hNext : cursor.next with
  | (none, _) => []
  | (some index, after) =>
      have := left_lt_of_next hNext
      index :: after.collect
  termination_by cursor.left

end Cursor

/- All members, ascending. -/
def members
    (set : BitSet) : List Nat :=
  (Cursor.ofSet set).collect

/-
  Keep only the members with the given property. It is asked
  once of every member, and then those without it are removed.
-/
def retain
    (set : BitSet)
    (keep : Nat → Bool) : BitSet :=
  (set.members.filter (fun i => !keep i)).foldl
    (fun rest i => (rest.erase i).1) set

end BitSet

end TwoLevel
