import Mathlib.Data.Finset.Card
import TwoLevel.OrderedSet

/-
  This file counts the members of ordered sets. Without its
  order a set is one of Mathlib's finite sets, and its size is
  the cardinality there.

  Key definitions include:
    * `OrderedSet.toFinset`

  Main theorems:
    * `card_toFinset`
    * `size_ofList_le`
    * `size_ofList_of_nodup`
    * `size_union_ofList`
-/

namespace TwoLevel

namespace OrderedSet

section Finite

variable {α : Type} [Ord α] [DecidableEq α]

/- The members, as a finite set without an order. -/
def toFinset
    (s : OrderedSet α) : Finset α :=
  s.toList.toFinset

@[simp] theorem mem_toFinset_iff
    {s : OrderedSet α}
    {x : α} :
    x ∈ s.toFinset ↔ x ∈ s :=
  List.mem_toFinset

variable [Std.LawfulEqOrd α]

theorem card_toFinset
    (s : OrderedSet α) :
    s.toFinset.card = s.size :=
  List.toFinset_card_of_nodup s.nodup

variable [Std.TransOrd α]

theorem toFinset_ofList
    (xs : List α) :
    (ofList xs).toFinset = xs.toFinset := by
  ext x
  rw [mem_toFinset_iff, mem_ofList_iff, List.mem_toFinset]

/- Values that are listed twice are one member. -/
theorem size_ofList_le
    (xs : List α) :
    (ofList xs).size ≤ xs.length := by
  rw [← card_toFinset, toFinset_ofList]
  exact List.toFinset_card_le xs

theorem size_ofList_of_nodup
    {xs : List α}
    (hNodup : xs.Nodup) :
    (ofList xs).size = xs.length := by
  rw [← card_toFinset, toFinset_ofList]
  exact List.toFinset_card_of_nodup hNodup

/- A list adds all its values if none of them is known. -/
theorem size_union_ofList
    {s : OrderedSet α}
    {xs : List α}
    (hNodup : xs.Nodup)
    (hNew : ∀ x ∈ xs, ¬ x ∈ s) :
    (s ∪ ofList xs).size = s.size + xs.length := by
  have hUnion :
      (s ∪ ofList xs).toFinset =
        s.toFinset ∪ xs.toFinset := by
    ext x
    rw [mem_toFinset_iff, mem_union_iff, mem_ofList_iff,
      Finset.mem_union, mem_toFinset_iff, List.mem_toFinset]
  have hDisjoint : Disjoint s.toFinset xs.toFinset := by
    rw [Finset.disjoint_right]
    intro x hx hs
    exact hNew x (List.mem_toFinset.1 hx)
      (mem_toFinset_iff.1 hs)
  rw [← card_toFinset, hUnion,
    Finset.card_union_of_disjoint hDisjoint, card_toFinset,
    List.toFinset_card_of_nodup hNodup]

end Finite

end OrderedSet

end TwoLevel
