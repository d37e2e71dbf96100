import TwoLevel.Proofs.Reduction.Rounds

/-
  This file shows that reducing a table of assignments finds
  exactly the prime implicants of its function.

  The rows of each round are all implicants with a given
  number of don't-cares. Two of them merge into an implicant
  with one more, and every such implicant arises this way. An
  implicant that is part of a larger one has a partner in its
  own round, so the rows left unmerged are the prime ones.

  Key definitions include:
    * `Row.IsImplicant`
    * `Row.StrictlyWithin`
    * `Row.IsPrimeImplicant`
    * `IsLevel`

  Main theorems:
    * `isLevel_merged`
    * `mem_unmerged_iff_isPrimeImplicant`
    * `mem_primesOf_rounds_iff_isPrimeImplicant`
    * `exists_reduce_eq_primeImplicants`
-/

namespace TwoLevel

namespace Row

------------------------------------------------------------
-- Implicants
------------------------------------------------------------

/- A row over the given variables that implies a function. -/
structure IsImplicant
    (f : List Bool → Prop)
    (arity : Nat)
    (row : Row) : Prop where
  arity_eq : row.arity = arity
  holds :
    ∀ assignment, row.satisfiedBy assignment = true →
      f assignment

/- The second row stands for more than the first. -/
def StrictlyWithin
    (inner outer : Row) : Prop :=
  inner.Within outer ∧
    ∃ assignment, outer.satisfiedBy assignment = true ∧
      inner.satisfiedBy assignment = false

/- An implicant that lies strictly inside no other. -/
structure IsPrimeImplicant
    (f : List Bool → Prop)
    (arity : Nat)
    (row : Row) : Prop extends IsImplicant f arity row where
  maximal :
    ∀ other, other.IsImplicant f arity →
      ¬ row.StrictlyWithin other

theorem strictlyWithin_iff
    {inner outer : Row} :
    inner.StrictlyWithin outer ↔
      inner.Within outer ∧ inner ≠ outer := by
  constructor
  · intro hGiven
    rcases hGiven with ⟨hWithin, assignment, hOuter, hInner⟩
    refine ⟨hWithin, ?_⟩
    intro hEq
    subst hEq
    rw [hOuter] at hInner
    cases hInner
  · intro hGiven
    rcases hGiven with ⟨hWithin, hNe⟩
    refine ⟨hWithin, ?_⟩
    by_contra hNone
    apply hNe
    apply within_antisymm hWithin
    intro assignment hOuter
    by_contra hInner
    rw [Bool.not_eq_true] at hInner
    exact hNone ⟨assignment, hOuter, hInner⟩

section Implicants

variable {f : List Bool → Prop}
variable {arity : Nat}

theorem IsImplicant.of_within
    {inner outer : Row}
    (hOuter : outer.IsImplicant f arity)
    (hWithin : inner.Within outer) :
    inner.IsImplicant f arity where
  arity_eq := by
    rw [arity_eq_of_within hWithin, hOuter.arity_eq]
  holds := fun assignment hSat =>
    hOuter.holds assignment (hWithin assignment hSat)

theorem isImplicant_of_merge
    {a b c : Row}
    (h : a.merge b = some c)
    (ha : a.IsImplicant f arity)
    (hb : b.IsImplicant f arity) :
    c.IsImplicant f arity where
  arity_eq := by
    rw [← (arity_of_merge h).1, ha.arity_eq]
  holds := by
    intro assignment hSat
    rw [satisfiedBy_of_merge h, Bool.or_eq_true] at hSat
    rcases hSat with hSat | hSat
    · exact ha.holds assignment hSat
    · exact hb.holds assignment hSat

/- A prime merges with no other implicant. -/
theorem merge_eq_none_of_isPrimeImplicant
    {prime other : Row}
    (hPrime : prime.IsPrimeImplicant f arity)
    (hOther : other.IsImplicant f arity) :
    prime.merge other = none := by
  cases hMerge : prime.merge other with
  | none => rfl
  | some merged =>
      have hMerged :=
        isImplicant_of_merge hMerge hPrime.toIsImplicant
          hOther
      have hStrict :=
        strictlyWithin_iff.2
          ⟨left_within_of_merge hMerge,
            ne_of_merge hMerge⟩
      exact absurd hStrict (hPrime.maximal merged hMerged)

/-
  Don't-cares can be turned into demands one by one, so an
  implicant has parts at every lower level.
-/
theorem exists_isImplicant_of_le
    {row : Row}
    {level : Nat}
    (hRow : row.IsImplicant f arity)
    (hLevel : level ≤ row.dontCares) :
    ∃ inner : Row, inner.IsImplicant f arity ∧
      inner.dontCares = level := by
  rcases Nat.le.dest hLevel with ⟨excess, hExcess⟩
  induction excess generalizing row with
  | zero => exact ⟨row, hRow, hExcess.symm⟩
  | succ excess ih =>
      have hPos : 0 < row.dontCares := by omega
      rcases exists_merge_eq_some hPos with ⟨a, b, hMerge⟩
      have hCount := (dontCares_of_merge hMerge).1
      exact ih (hRow.of_within (left_within_of_merge hMerge))
        (by omega) (by omega)

end Implicants

end Row

------------------------------------------------------------
-- The Rows of a Round
------------------------------------------------------------

/- All implicants with the given number of don't-cares. -/
def IsLevel
    (f : List Bool → Prop)
    (arity level : Nat)
    (working : List Row) : Prop :=
  ∀ row, row ∈ working ↔
    row.IsImplicant f arity ∧ row.dontCares = level

section Levels

variable {f : List Bool → Prop}
variable {arity level : Nat}
variable {working : List Row}

/- One round leads from one level to the next. -/
theorem isLevel_merged
    (config : Config)
    (h : IsLevel f arity level working) :
    IsLevel f arity (level + 1)
      (Round.ofRows config working).merged.toList := by
  intro row
  rw [OrderedSet.mem_toList_iff, Round.mem_merged_iff]
  constructor
  · intro hGiven
    rcases hGiven with ⟨a, ha, b, hb, hMerge⟩
    rcases (h a).1 ha with ⟨hImplicantA, hCountA⟩
    rcases (h b).1 hb with ⟨hImplicantB, _⟩
    refine ⟨Row.isImplicant_of_merge hMerge
      hImplicantA hImplicantB, ?_⟩
    rw [(Row.dontCares_of_merge hMerge).1, hCountA]
  · intro hGiven
    rcases hGiven with ⟨hImplicant, hCount⟩
    have hPos : 0 < row.dontCares := by omega
    rcases Row.exists_merge_eq_some hPos with
      ⟨a, b, hMerge⟩
    have hCounts := Row.dontCares_of_merge hMerge
    refine ⟨a, (h a).2 ⟨?_, by omega⟩,
      b, (h b).2 ⟨?_, by omega⟩, hMerge⟩
    · exact hImplicant.of_within
        (Row.left_within_of_merge hMerge)
    · exact hImplicant.of_within
        (Row.right_within_of_merge hMerge)

/- What a round leaves unmerged are its prime implicants. -/
theorem mem_unmerged_iff_isPrimeImplicant
    {config : Config}
    (h : IsLevel f arity level working)
    {row : Row} :
    row ∈ (Round.ofRows config working).unmerged ↔
      row.IsPrimeImplicant f arity ∧
        row.dontCares = level := by
  rw [Round.mem_unmerged_iff, h row]
  constructor
  · intro hGiven
    rcases hGiven with ⟨⟨hImplicant, hCount⟩, hUnmerged⟩
    refine ⟨⟨hImplicant, ?_⟩, hCount⟩
    intro outer hOuter hStrict
    rcases Row.strictlyWithin_iff.1 hStrict with
      ⟨hWithin, hNe⟩
    rcases Row.exists_partner_of_within hWithin hNe with
      ⟨other, merged, hMerge, hMerged⟩
    have hCounts := Row.dontCares_of_merge hMerge
    have hOther : other ∈ working := by
      refine (h other).2 ⟨?_, by omega⟩
      exact hOuter.of_within
        ((Row.right_within_of_merge hMerge).trans hMerged)
    rw [hUnmerged other hOther] at hMerge
    cases hMerge
  · intro hGiven
    rcases hGiven with ⟨hPrime, hCount⟩
    refine ⟨⟨hPrime.toIsImplicant, hCount⟩, ?_⟩
    intro other hOther
    exact Row.merge_eq_none_of_isPrimeImplicant hPrime
      ((h other).1 hOther).1

/-
  The rounds from one level on find the prime implicants of
  that level and of all higher ones.
-/
theorem mem_primesOf_rounds_iff_isPrimeImplicant
    {config : Config}
    (h : IsLevel f arity level working)
    {row : Row} :
    row ∈ primesOf (rounds config working) ↔
      row.IsPrimeImplicant f arity ∧
        level ≤ row.dontCares := by
  induction working using roundsInduction config
      generalizing level with
  | done =>
      constructor
      · intro hMem
        simp [rounds, primesOf] at hMem
      · intro hGiven
        rcases hGiven with ⟨hPrime, hLevel⟩
        rcases Row.exists_isImplicant_of_le
            hPrime.toIsImplicant hLevel with
          ⟨inner, hInner⟩
        have hMem := (h inner).2 hInner
        cases hMem
  | round first rest ih =>
      rw [mem_primesOf_rounds_iff,
        mem_unmerged_iff_isPrimeImplicant h,
        ih (isLevel_merged config h)]
      constructor
      · intro hGiven
        rcases hGiven with
          ⟨hPrime, hCount⟩ | ⟨hPrime, hLevel⟩
        · exact ⟨hPrime, by omega⟩
        · exact ⟨hPrime, by omega⟩
      · intro hGiven
        rcases hGiven with ⟨hPrime, hLevel⟩
        rcases Nat.eq_or_lt_of_le hLevel with hEq | hLt
        · exact Or.inl ⟨hPrime, hEq.symm⟩
        · exact Or.inr ⟨hPrime, hLt⟩

end Levels

------------------------------------------------------------
-- Tables of Assignments
------------------------------------------------------------

namespace Table

/- A table of assignments is the lowest level. -/
theorem isLevel_zero
    {table : Table}
    (hFull :
      ∀ row ∈ table.rows, row.isAssignment = true) :
    IsLevel (fun assignment =>
        Row.ofBools assignment ∈ table.rows)
      table.arity 0 table.rows.toList := by
  intro row
  rw [OrderedSet.mem_toList_iff]
  constructor
  · intro hRow
    have hAssignment := hFull row hRow
    refine ⟨⟨table.row_arity row hRow, ?_⟩,
      Row.isAssignment_iff.1 hAssignment⟩
    intro assignment hSat
    rcases Row.exists_ofBools_eq hAssignment with ⟨bits, rfl⟩
    rw [Row.satisfiedBy_ofBools, decide_eq_true_eq] at hSat
    rw [← hSat]
    exact hRow
  · intro hGiven
    rcases hGiven with ⟨hImplicant, hCount⟩
    rcases Row.exists_ofBools_eq
        (Row.isAssignment_iff.2 hCount) with ⟨bits, rfl⟩
    apply hImplicant.holds bits
    rw [Row.satisfiedBy_ofBools, decide_eq_true_eq]

/-
  Reducing a table of assignments gives the prime implicants
  of the function that is true on them.
-/
theorem exists_reduce_eq_primeImplicants
    (config : Config)
    {table : Table}
    (hRows : table.isEmpty = false)
    (hFull :
      ∀ row ∈ table.rows, row.isAssignment = true) :
    ∃ primes, table.reduce config = .ok primes ∧
      ∀ row, row ∈ primes ↔
        row.IsPrimeImplicant
          (fun assignment =>
            Row.ofBools assignment ∈ table.rows)
          table.arity := by
  refine ⟨primesOf (rounds config table.rows.toList),
    reduce_eq_ok_iff.2 ⟨hRows, rfl⟩, fun row => ?_⟩
  rw [mem_primesOf_rounds_iff_isPrimeImplicant
    (isLevel_zero hFull)]
  constructor
  · exact fun h => h.1
  · exact fun h => ⟨h, Nat.zero_le _⟩

/- The table of `x1 → x2`. -/
def implication : Table where
  arity := 2
  rows :=
    OrderedSet.ofList
      ([[false, false], [false, true], [true, true]].map
        Row.ofBools)
  arity_pos := by decide
  row_arity := by decide +kernel

theorem reduce_implication_eq_primeImplicants :
    implication.isEmpty = false ∧
      (∀ row ∈ implication.rows,
        row.isAssignment = true) ∧
      ∃ primes, implication.reduce {} = .ok primes ∧
        ∀ row, row ∈ primes ↔
          row.IsPrimeImplicant
            (fun assignment =>
              Row.ofBools assignment ∈ implication.rows)
            implication.arity :=
  have hRows : implication.isEmpty = false := by
    decide +kernel
  have hFull :
      ∀ row ∈ implication.rows, row.isAssignment = true := by
    decide +kernel
  ⟨hRows, hFull,
    exists_reduce_eq_primeImplicants {} hRows hFull⟩

end Table

end TwoLevel
