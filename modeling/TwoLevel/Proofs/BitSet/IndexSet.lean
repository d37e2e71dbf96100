import Mathlib.Data.Finset.Sort
import Mathlib.Data.List.TakeWhile
import TwoLevel.BitSet.Bank

/-
  This file defines what bit sets stand for: plain finite sets
  of indices below a width, without words and without a count
  that is kept. They are given the same commands, and here
  every answer is read off the members.

  Key definitions include:
    * `IndexSet`
    * `IndexSet.create`
    * `IndexSet.extend`
    * `IndexSet.restrict`
    * `IndexSet.apply`
    * `IndexSet.run`
-/

namespace TwoLevel

/- A set of indices, all of them below the width. -/
structure IndexSet where
  width : Nat
  members : Finset Nat
  lt_width : ∀ i ∈ members, i < width

namespace IndexSet

/- Sets of one width with the same members are equal. -/
@[ext] theorem ext
    {s t : IndexSet}
    (hWidth : s.width = t.width)
    (hMembers : ∀ i, i ∈ s.members ↔ i ∈ t.members) :
    s = t := by
  rcases s with ⟨width, members, _⟩
  rcases t with ⟨width', members', _⟩
  have hSets : members = members' := Finset.ext hMembers
  subst hWidth
  subst hSets
  rfl

------------------------------------------------------------
-- Operations
------------------------------------------------------------

/- The set that begins in a given way. -/
def create : Bank.Origin → IndexSet
  | .empty width =>
      { width
        members := ∅
        lt_width := fun _ hi => absurd hi (by simp) }
  | .full width =>
      { width
        members := Finset.range width
        lt_width := fun _ hi => Finset.mem_range.1 hi }

/- One more index, which the width allows. -/
def add
    (s : IndexSet)
    (index : Nat)
    (h : index < s.width) : IndexSet where
  width := s.width
  members := insert index s.members
  lt_width := by
    intro i hi
    rcases Finset.mem_insert.1 hi with rfl | hMember
    · exact h
    · exact s.lt_width i hMember

/- The indices before the first that the width forbids. -/
def allowed
    (s : IndexSet)
    (indices : List Nat) : List Nat :=
  indices.takeWhile (fun i => decide (i < s.width))

/- The first index that the width forbids. -/
def forbidden?
    (s : IndexSet)
    (indices : List Nat) : Option Nat :=
  indices.find? (fun i => decide (s.width ≤ i))

/- More indices, up to the first that the width forbids. -/
def extend
    (s : IndexSet)
    (indices : List Nat) : IndexSet where
  width := s.width
  members := s.members ∪ (s.allowed indices).toFinset
  lt_width := by
    intro i hi
    rcases Finset.mem_union.1 hi with hMember | hIndex
    · exact s.lt_width i hMember
    · have hAllowed :=
        List.mem_takeWhile_imp (List.mem_toFinset.1 hIndex)
      exact of_decide_eq_true hAllowed

section Extension

variable {s : IndexSet}
variable {index : Nat}

theorem mem_add_iff
    (h : index < s.width)
    {i : Nat} :
    i ∈ (s.add index h).members ↔
      i = index ∨ i ∈ s.members :=
  Finset.mem_insert

theorem mem_extend_iff
    {indices : List Nat}
    {i : Nat} :
    i ∈ (s.extend indices).members ↔
      i ∈ s.members ∨ i ∈ s.allowed indices := by
  rw [extend, Finset.mem_union, List.mem_toFinset]

theorem extend_nil :
    s.extend [] = s := by
  ext i
  · rfl
  · simp [mem_extend_iff, allowed]

theorem extend_cons_of_lt
    (h : index < s.width)
    (indices : List Nat) :
    s.extend (index :: indices) =
      (s.add index h).extend indices := by
  have hFirst :
      s.allowed (index :: indices) =
        index :: s.allowed indices :=
    List.takeWhile_cons_of_pos (decide_eq_true h)
  have hRest :
      (s.add index h).allowed indices = s.allowed indices :=
    rfl
  ext i
  · rfl
  · rw [mem_extend_iff, mem_extend_iff, mem_add_iff, hFirst,
      hRest, List.mem_cons, or_left_comm, or_assoc]

theorem extend_cons_of_le
    (h : s.width ≤ index)
    (indices : List Nat) :
    s.extend (index :: indices) = s := by
  have hNot : ¬ index < s.width := by omega
  ext i
  · rfl
  · simp [mem_extend_iff, allowed, hNot]

theorem forbidden?_cons_of_lt
    (h : index < s.width)
    (indices : List Nat) :
    s.forbidden? (index :: indices) =
      s.forbidden? indices := by
  have hNot : ¬ s.width ≤ index := by omega
  simp [forbidden?, hNot]

theorem forbidden?_cons_of_le
    (h : s.width ≤ index)
    (indices : List Nat) :
    s.forbidden? (index :: indices) = some index := by
  simp [forbidden?, h]

end Extension

/- Some of the members only. -/
def restrict
    (s : IndexSet)
    (kept : Finset Nat)
    (h : kept ⊆ s.members) : IndexSet where
  width := s.width
  members := kept
  lt_width := fun i hi => s.lt_width i (h hi)

def erase
    (s : IndexSet)
    (index : Nat) : IndexSet :=
  s.restrict (s.members.erase index)
    (Finset.erase_subset index s.members)

def retain
    (s : IndexSet)
    (keep : Nat → Bool) : IndexSet :=
  s.restrict (s.members.filter (fun i => keep i = true))
    (Finset.filter_subset _ s.members)

def diff
    (s t : IndexSet) : IndexSet :=
  s.restrict (s.members \ t.members) Finset.sdiff_subset

------------------------------------------------------------
-- Commands
------------------------------------------------------------

/-
  The effect of a command on a set, given all the sets. An
  index beyond the width is refused and changes nothing.
-/
def apply
    (sets : List IndexSet)
    (set : IndexSet) : Bank.Command → Bank.Reply × IndexSet
  | .insert index =>
      if h : index < set.width then
        (.truth (decide (index ∉ set.members)),
          set.add index h)
      else
        (.refused ⟨index, set.width⟩, set)
  | .erase index =>
      (.truth (decide (index ∈ set.members)),
        set.erase index)
  | .contains index =>
      (.truth (decide (index ∈ set.members)), set)
  | .extend indices =>
      match set.forbidden? indices with
      | none => (.done, set.extend indices)
      | some index =>
          (.refused ⟨index, set.width⟩, set.extend indices)
  | .retain keep => (.done, set.retain keep)
  | .interSize other =>
      match sets[other]? with
      | some second =>
          (.number (set.members ∩ second.members).card, set)
      | none => (.absent, set)
  | .diff other =>
      match sets[other]? with
      | some second => (.done, set.diff second)
      | none => (.absent, set)
  | .copy other =>
      match sets[other]? with
      | some second => (.done, second)
      | none => (.absent, set)
  | .equals other =>
      match sets[other]? with
      | some second =>
          (.truth (decide (set.width = second.width ∧
            set.members = second.members)), set)
      | none => (.absent, set)
  | .size => (.number set.members.card, set)
  | .isEmpty => (.truth (decide (set.members = ∅)), set)
  | .first => (.index set.members.sort.head?, set)
  | .members => (.indices set.members.sort, set)

/- Give a command to the set of the given number. -/
def step
    (sets : List IndexSet)
    (target : Nat)
    (command : Bank.Command) :
    Bank.Reply × List IndexSet :=
  match sets[target]? with
  | none => (.absent, sets)
  | some set =>
      let (reply, after) := apply sets set command
      (reply, sets.set target after)

/- Give commands one after the other. -/
def run
    (sets : List IndexSet) :
    List (Nat × Bank.Command) →
      List Bank.Reply × List IndexSet
  | [] => ([], sets)
  | (target, command) :: rest =>
      let (reply, after) := step sets target command
      let (replies, last) := run after rest
      (reply :: replies, last)

end IndexSet

end TwoLevel
