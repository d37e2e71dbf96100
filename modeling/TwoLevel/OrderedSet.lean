/-
  This file defines finite sets kept as strictly ascending
  lists. A set has exactly one such list, so two sets with the
  same members are equal, and listing a set is reading it off.

  Key definitions include:
    * `OrderedSet`
    * `OrderedSet.ofList`
    * `OrderedSet.union`
    * `OrderedSet.contains`

  Main theorems:
    * `ext`
    * `mem_ofList_iff`
    * `mem_union_iff`
    * `ofList_toList`
-/

namespace TwoLevel

------------------------------------------------------------
-- Ascending Lists
------------------------------------------------------------

namespace Ascending

variable {α : Type} [Ord α]

/- Interleave two ascending lists, keeping one of equals. -/
def merge : List α → List α → List α
  | [], ys => ys
  | x :: xs, [] => x :: xs
  | x :: xs, y :: ys =>
      match compare x y with
      | .lt => x :: merge xs (y :: ys)
      | .eq => x :: merge xs ys
      | .gt => y :: merge (x :: xs) ys
  termination_by xs ys => xs.length + ys.length

/- Merge the first list with the second, and so on. -/
def mergePairs : List (List α) → List (List α)
  | xs :: ys :: rest => merge xs ys :: mergePairs rest
  | lists => lists

theorem length_mergePairs_le
    (lists : List (List α)) :
    (mergePairs lists).length ≤ lists.length := by
  fun_induction mergePairs lists with
  | case1 xs ys rest ih =>
      simp only [List.length_cons]
      omega
  | case2 lists => exact Nat.le_refl _

/- Merge lists pairwise until one is left. -/
def mergeAll : List (List α) → List α
  | [] => []
  | [xs] => xs
  | xs :: ys :: rest =>
      mergeAll (merge xs ys :: mergePairs rest)
  termination_by lists => lists.length
  decreasing_by
    have := length_mergePairs_le rest
    simp only [List.length_cons]
    omega

/- The values of a list, each once and in order. -/
def sort
    (xs : List α) : List α :=
  mergeAll (xs.map (fun x => [x]))

/- The order in which an ascending list is kept. -/
abbrev Sorted
    (xs : List α) : Prop :=
  xs.Pairwise (fun x y => compare x y = .lt)

variable [Std.LawfulEqOrd α]

theorem mem_merge_iff
    {z : α}
    {xs ys : List α} :
    z ∈ merge xs ys ↔ z ∈ xs ∨ z ∈ ys := by
  fun_induction merge xs ys with
  | case1 ys => simp
  | case2 x xs => simp
  | case3 x xs y ys h ih =>
      simp only [List.mem_cons, ih]
      constructor
      · rintro (h | h | h | h) <;> simp [h]
      · rintro ((h | h) | h | h) <;> simp [h]
  | case4 x xs y ys h ih =>
      have hxy := Std.LawfulEqOrd.eq_of_compare h
      subst hxy
      simp only [List.mem_cons, ih]
      constructor
      · rintro (h | h | h) <;> simp [h]
      · rintro ((h | h) | h | h) <;> simp [h]
  | case5 x xs y ys h ih =>
      simp only [List.mem_cons, ih]
      constructor
      · rintro (h | (h | h) | h) <;> simp [h]
      · rintro ((h | h) | h | h) <;> simp [h]

private theorem mem_mergePairs_iff
    {z : α}
    {lists : List (List α)} :
    z ∈ (mergePairs lists).flatten ↔
      z ∈ lists.flatten := by
  fun_induction mergePairs lists with
  | case1 xs ys rest ih =>
      simp only [List.flatten_cons, List.mem_append, ih,
        mem_merge_iff, or_assoc]
  | case2 lists => rfl

private theorem mem_mergeAll_iff
    {z : α}
    {lists : List (List α)} :
    z ∈ mergeAll lists ↔ z ∈ lists.flatten := by
  fun_induction mergeAll lists with
  | case1 => rfl
  | case2 xs => simp
  | case3 xs ys rest ih =>
      rw [ih]
      simp only [List.flatten_cons, List.mem_append,
        mem_mergePairs_iff, mem_merge_iff, or_assoc]

theorem mem_sort_iff
    {z : α}
    {xs : List α} :
    z ∈ sort xs ↔ z ∈ xs := by
  rw [sort, mem_mergeAll_iff, ← List.flatMap_def,
    List.mem_flatMap]
  simp

private theorem not_lt_self
    (x : α) :
    compare x x ≠ .lt := by
  simp [Std.ReflCmp.compare_self]

theorem nodup
    {xs : List α}
    (h : Sorted xs) :
    xs.Nodup := by
  apply List.Pairwise.imp ?_ h
  intro x y hxy hEq
  subst hEq
  exact not_lt_self x hxy

variable [Std.TransOrd α]

theorem sorted_merge
    {xs ys : List α}
    (hx : Sorted xs)
    (hy : Sorted ys) :
    Sorted (merge xs ys) := by
  fun_induction merge xs ys with
  | case1 ys => exact hy
  | case2 x xs => exact hx
  | case3 x xs y ys h ih =>
      have hx' := List.pairwise_cons.1 hx
      have hy' := List.pairwise_cons.1 hy
      refine List.pairwise_cons.2 ⟨?_, ih hx'.2 hy⟩
      intro z hz
      rcases mem_merge_iff.1 hz with hz | hz
      · exact hx'.1 z hz
      · rcases List.mem_cons.1 hz with rfl | hz
        · exact h
        · exact Std.TransCmp.lt_trans h (hy'.1 z hz)
  | case4 x xs y ys h ih =>
      have hxy := Std.LawfulEqOrd.eq_of_compare h
      subst hxy
      have hx' := List.pairwise_cons.1 hx
      have hy' := List.pairwise_cons.1 hy
      refine List.pairwise_cons.2 ⟨?_, ih hx'.2 hy'.2⟩
      intro z hz
      rcases mem_merge_iff.1 hz with hz | hz
      · exact hx'.1 z hz
      · exact hy'.1 z hz
  | case5 x xs y ys h ih =>
      have hx' := List.pairwise_cons.1 hx
      have hy' := List.pairwise_cons.1 hy
      have hyx := Std.OrientedCmp.gt_iff_lt.1 h
      refine List.pairwise_cons.2 ⟨?_, ih hx hy'.2⟩
      intro z hz
      rcases mem_merge_iff.1 hz with hz | hz
      · rcases List.mem_cons.1 hz with rfl | hz
        · exact hyx
        · exact Std.TransCmp.lt_trans hyx (hx'.1 z hz)
      · exact hy'.1 z hz

private theorem sorted_mergePairs
    {lists : List (List α)}
    (h : ∀ xs ∈ lists, Sorted xs) :
    ∀ xs ∈ mergePairs lists, Sorted xs := by
  fun_induction mergePairs lists with
  | case1 xs ys rest ih =>
      simp only [List.mem_cons, forall_eq_or_imp] at h ⊢
      exact ⟨sorted_merge h.1 h.2.1, ih h.2.2⟩
  | case2 lists => exact h

private theorem sorted_mergeAll
    {lists : List (List α)}
    (h : ∀ xs ∈ lists, Sorted xs) :
    Sorted (mergeAll lists) := by
  fun_induction mergeAll lists with
  | case1 => exact List.Pairwise.nil
  | case2 xs => exact h xs List.mem_cons_self
  | case3 xs ys rest ih =>
      simp only [List.mem_cons, forall_eq_or_imp] at h ih
      exact ih ⟨sorted_merge h.1 h.2.1,
        sorted_mergePairs h.2.2⟩

theorem sorted_sort
    (xs : List α) :
    Sorted (sort xs) := by
  apply sorted_mergeAll
  intro ys hys
  rcases List.mem_map.1 hys with ⟨x, _, rfl⟩
  exact List.pairwise_singleton _ x

/- An ascending list is determined by its members. -/
theorem eq_of_mem_iff
    {xs ys : List α}
    (hx : Sorted xs)
    (hy : Sorted ys)
    (h : ∀ z, z ∈ xs ↔ z ∈ ys) :
    xs = ys := by
  induction xs generalizing ys with
  | nil =>
      cases ys with
      | nil => rfl
      | cons y ys => simpa using (h y).2
  | cons x xs ih =>
      cases ys with
      | nil => simpa using (h x).1
      | cons y ys =>
          have hx' := List.pairwise_cons.1 hx
          have hy' := List.pairwise_cons.1 hy
          have hxy : x = y := by
            rcases List.mem_cons.1
              ((h x).1 List.mem_cons_self) with rfl | hxs
            · rfl
            rcases List.mem_cons.1
              ((h y).2 List.mem_cons_self) with rfl | hys
            · rfl
            exact absurd
              (Std.TransCmp.lt_trans
                (hx'.1 y hys) (hy'.1 x hxs))
              (not_lt_self x)
          subst hxy
          congr 1
          refine ih hx'.2 hy'.2 (fun z => ?_)
          constructor
          · intro hz
            rcases List.mem_cons.1
              ((h z).1 (List.mem_cons_of_mem _ hz))
              with rfl | hzs
            · exact absurd (hx'.1 z hz) (not_lt_self z)
            · exact hzs
          · intro hz
            rcases List.mem_cons.1
              ((h z).2 (List.mem_cons_of_mem _ hz))
              with rfl | hzs
            · exact absurd (hy'.1 z hz) (not_lt_self z)
            · exact hzs

end Ascending

------------------------------------------------------------
-- Ordered Sets
------------------------------------------------------------

/- A finite set, listed in strictly ascending order. -/
structure OrderedSet
    (α : Type)
    [Ord α] where
  toList : List α
  ascending : Ascending.Sorted toList

namespace OrderedSet

section Basic

variable {α : Type} [Ord α]

instance : Membership α (OrderedSet α) where
  mem s x := x ∈ s.toList

/- The set without members. -/
def empty : OrderedSet α where
  toList := []
  ascending := List.Pairwise.nil

instance : EmptyCollection (OrderedSet α) where
  emptyCollection := empty

instance
    [DecidableEq α] :
    DecidableEq (OrderedSet α) :=
  fun s t =>
    decidable_of_iff (s.toList = t.toList) (by
      cases s
      cases t
      simp)

/- The number of members. -/
def size
    (s : OrderedSet α) : Nat :=
  s.toList.length

/- Whether there is no member. -/
def isEmpty
    (s : OrderedSet α) : Bool :=
  s.toList.isEmpty

/- The least member. -/
def first?
    (s : OrderedSet α) : Option α :=
  s.toList.head?

/- Whether a value is a member. -/
def contains
    [DecidableEq α]
    (s : OrderedSet α)
    (x : α) : Bool :=
  s.toList.contains x

@[simp] theorem contains_iff
    [DecidableEq α]
    {s : OrderedSet α}
    {x : α} :
    s.contains x = true ↔ x ∈ s := by
  simp [contains, Membership.mem]

instance
    [DecidableEq α]
    (s : OrderedSet α)
    (x : α) :
    Decidable (x ∈ s) :=
  decidable_of_iff (s.contains x = true) contains_iff

instance
    (s : OrderedSet α)
    (p : α → Prop)
    [DecidablePred p] :
    Decidable (∀ x ∈ s, p x) :=
  inferInstanceAs (Decidable (∀ x ∈ s.toList, p x))

@[simp] theorem mem_toList_iff
    {s : OrderedSet α}
    {x : α} :
    x ∈ s.toList ↔ x ∈ s :=
  Iff.rfl

@[simp] theorem toList_empty :
    (∅ : OrderedSet α).toList = [] :=
  rfl

@[simp] theorem not_mem_empty
    (x : α) :
    ¬ x ∈ (∅ : OrderedSet α) :=
  List.not_mem_nil

theorem isEmpty_iff
    {s : OrderedSet α} :
    s.isEmpty = true ↔ s = ∅ := by
  cases s with
  | mk xs h =>
      show xs.isEmpty = true ↔ OrderedSet.mk xs h = empty
      cases xs <;> simp [empty]

theorem isEmpty_eq_false_of_mem
    {s : OrderedSet α}
    {x : α}
    (h : x ∈ s) :
    s.isEmpty = false := by
  rw [← Bool.not_eq_true, isEmpty_iff]
  intro hNone
  rw [hNone] at h
  exact not_mem_empty x h

/- A set that is not empty has a least member. -/
theorem exists_first?_eq_some
    {s : OrderedSet α}
    (h : s.isEmpty = false) :
    ∃ first ∈ s, s.first? = some first := by
  cases hList : s.toList with
  | nil =>
      rw [isEmpty, hList] at h
      cases h
  | cons first rest =>
      refine ⟨first, ?_, ?_⟩
      · rw [← mem_toList_iff, hList]
        exact List.mem_cons_self
      · rw [first?, hList]
        rfl

end Basic

section Lawful

variable {α : Type} [Ord α] [Std.LawfulEqOrd α]

/- A set lists no member twice. -/
theorem nodup
    (s : OrderedSet α) :
    s.toList.Nodup :=
  Ascending.nodup s.ascending

variable [Std.TransOrd α]

/- Sets with the same members are equal. -/
@[ext] theorem ext
    {s t : OrderedSet α}
    (h : ∀ x, x ∈ s ↔ x ∈ t) :
    s = t := by
  cases s with
  | mk xs hx =>
      cases t with
      | mk ys hy =>
          have := Ascending.eq_of_mem_iff hx hy h
          subst this
          rfl

/- The members of a list. -/
def ofList
    (xs : List α) : OrderedSet α where
  toList := Ascending.sort xs
  ascending := Ascending.sorted_sort xs

@[simp] theorem mem_ofList_iff
    {z : α}
    {xs : List α} :
    z ∈ ofList xs ↔ z ∈ xs :=
  Ascending.mem_sort_iff

@[simp] theorem ofList_toList
    (s : OrderedSet α) :
    ofList s.toList = s := by
  ext z
  simp

/- The members of either set. -/
def union
    (s t : OrderedSet α) : OrderedSet α where
  toList := Ascending.merge s.toList t.toList
  ascending :=
    Ascending.sorted_merge s.ascending t.ascending

instance : Union (OrderedSet α) where
  union := union

@[simp] theorem mem_union_iff
    {z : α}
    {s t : OrderedSet α} :
    z ∈ s ∪ t ↔ z ∈ s ∨ z ∈ t :=
  Ascending.mem_merge_iff

end Lawful

end OrderedSet

end TwoLevel
