import Mathlib.Data.List.Forall2
import TwoLevel.Error

/-
  This file says when a computation that may fail has given a
  value: each of its steps has given one. Otherwise the first
  step that fails settles the failure.

  Main theorems:
    * `bind_eq_ok_iff`
    * `map_eq_ok_iff`
    * `mapM_eq_ok_iff`
    * `mapM_eq_ok_map`
    * `exists_mapM_eq_ok`
    * `mapM_eq_error`
    * `mapM_eq_error_of_find?`
    * `mapM_map_eq_some`
-/

namespace TwoLevel

section Computation

variable {α β ε : Type}

theorem bind_eq_ok_iff
    {computation : Except ε α}
    {next : α → Except ε β}
    {result : β} :
    (computation >>= next) = .ok result ↔
      ∃ value, computation = .ok value ∧
        next value = .ok result := by
  constructor
  · intro h
    cases computation with
    | error fault => cases h
    | ok value => exact ⟨value, rfl, h⟩
  · intro hGiven
    rcases hGiven with ⟨value, rfl, h⟩
    exact h

theorem map_eq_ok_iff
    {computation : Except ε α}
    {f : α → β}
    {result : β} :
    computation.map f = .ok result ↔
      ∃ value, computation = .ok value ∧
        f value = result := by
  constructor
  · intro h
    cases computation with
    | error fault => cases h
    | ok value => exact ⟨value, rfl, Except.ok.inj h⟩
  · intro hGiven
    rcases hGiven with ⟨value, rfl, rfl⟩
    rfl

/- A list of computations succeeds when each of them does. -/
theorem mapM_eq_ok_iff
    {f : α → Except ε β}
    {xs : List α}
    {ys : List β} :
    xs.mapM f = .ok ys ↔
      List.Forall₂ (fun x y => f x = .ok y) xs ys := by
  induction xs generalizing ys with
  | nil =>
      rw [List.mapM_nil, List.forall₂_nil_left_iff]
      constructor
      · intro h
        exact (Except.ok.inj h).symm
      · intro hEq
        subst hEq
        rfl
  | cons x xs ih =>
      rw [List.mapM_cons, List.forall₂_cons_left_iff,
        bind_eq_ok_iff]
      constructor
      · intro hGiven
        rcases hGiven with ⟨y, hy, hRest⟩
        rcases bind_eq_ok_iff.1 hRest with ⟨zs, hzs, hList⟩
        exact ⟨y, zs, hy, ih.1 hzs,
          (Except.ok.inj hList).symm⟩
      · intro hGiven
        rcases hGiven with ⟨y, zs, hy, hzs, rfl⟩
        refine ⟨y, hy, bind_eq_ok_iff.2 ⟨zs, ih.2 hzs, ?_⟩⟩
        rfl

/- When the values are known, so is the list of them. -/
theorem mapM_eq_ok_map
    {f : α → Except ε β}
    {g : α → β}
    {xs : List α}
    (h : ∀ x ∈ xs, f x = .ok (g x)) :
    xs.mapM f = .ok (xs.map g) := by
  rw [mapM_eq_ok_iff, List.forall₂_map_right_iff,
    List.forall₂_same]
  exact h

/- Computations that all give a value do so one by one. -/
theorem exists_mapM_eq_ok
    {f : α → Except ε β}
    {xs : List α}
    (h : ∀ x ∈ xs, ∃ y, f x = .ok y) :
    ∃ ys, xs.mapM f = .ok ys := by
  induction xs with
  | nil => exact ⟨[], mapM_eq_ok_iff.2 List.Forall₂.nil⟩
  | cons x xs ih =>
      rcases List.forall_mem_cons.1 h with
        ⟨⟨y, hy⟩, hRest⟩
      rcases ih hRest with ⟨ys, hys⟩
      have hList := mapM_eq_ok_iff.1 hys
      exact ⟨y :: ys,
        mapM_eq_ok_iff.2 (List.Forall₂.cons hy hList)⟩

/- The first computation that fails settles the failure. -/
theorem mapM_eq_error
    {f : α → Except ε β}
    {before : List α}
    {x : α}
    {fault : ε}
    (hBefore : ∀ y ∈ before, ∃ z, f y = .ok z)
    (hx : f x = .error fault)
    (after : List α) :
    (before ++ x :: after).mapM f = .error fault := by
  induction before with
  | nil =>
      rw [List.nil_append, List.mapM_cons, hx]
      rfl
  | cons y before ih =>
      rcases List.forall_mem_cons.1 hBefore with
        ⟨⟨z, hz⟩, hRest⟩
      rw [List.cons_append, List.mapM_cons, hz, ih hRest]
      rfl

/- A test that tells which computations fail finds it. -/
theorem mapM_eq_error_of_find?
    {f : α → Except ε β}
    {fails : α → Bool}
    {xs : List α}
    {x : α}
    {fault : ε}
    (h : xs.find? fails = some x)
    (hOk : ∀ y, fails y = false → ∃ z, f y = .ok z)
    (hx : f x = .error fault) :
    xs.mapM f = .error fault := by
  rcases List.find?_eq_some_iff_append.1 h with
    ⟨_, before, after, rfl, hBefore⟩
  apply mapM_eq_error ?_ hx
  intro y hy
  apply hOk
  simpa using hBefore y hy

/- Values that are found again one by one are found again. -/
theorem mapM_map_eq_some
    {γ : Type}
    {f : β → Option γ}
    {g : α → β}
    {k : α → γ}
    {xs : List α}
    (h : ∀ x ∈ xs, f (g x) = some (k x)) :
    (xs.map g).mapM f = some (xs.map k) := by
  induction xs with
  | nil => rfl
  | cons x xs ih =>
      rcases List.forall_mem_cons.1 h with ⟨hx, hxs⟩
      rw [List.map_cons, List.mapM_cons, hx, ih hxs]
      rfl

end Computation

end TwoLevel
