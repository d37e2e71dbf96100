import TwoLevel.Proofs.Reduction.PrimeImplicants

/-
  This file says which rows are enough to find all prime
  implicants. Rows that are no assignments may hide a prime:
  a row is dropped from the rounds when its partner is not
  there yet, and parts of a prime that nobody lists are never
  merged.

  Rows are closed under partners when, with one half of an
  implicant, they have the other half too. One round keeps
  that. So a row is left over only if it is prime, and a row
  inside a prime grows until it is that prime.

  Key definitions include:
    * `PartnerClosed`
    * `Table.IsSaturated`

  Main theorems:
    * `exists_square_of_merge`
    * `partnerClosed_merged`
    * `isPrimeImplicant_of_mem_primes`
    * `mem_primesOf_rounds_of_within`
    * `mem_reduce_iff_of_isSaturated`
    * `isSaturated_of_isAssignment`
    * `isSaturated_of_reduce`
-/

namespace TwoLevel

------------------------------------------------------------
-- Squares of Rows
------------------------------------------------------------

namespace Row

private theorem within_of_mergeValues
    {as bs cs : List Value}
    (h : mergeValues as bs = some cs) :
    Within ⟨as⟩ ⟨cs⟩ ∧ Within ⟨bs⟩ ⟨cs⟩ := by
  have hMerge : merge ⟨as⟩ ⟨bs⟩ = some ⟨cs⟩ :=
    merge_eq_some_iff.2 h
  exact ⟨left_within_of_merge hMerge,
    right_within_of_merge hMerge⟩

/-
  By induction on the values before the first of the two
  merged positions. From there on one merge is the same in
  both halves of the other.
-/
private theorem exists_square_of_mergeValues
    {as bs cs ds es : List Value}
    (hab : mergeValues as bs = some cs)
    (hcd : mergeValues cs ds = some es) :
    ∃ as' bs' left right,
      mergeValues as' bs' = some ds ∧
      mergeValues as as' = some left ∧
      mergeValues bs bs' = some right ∧
      Within ⟨left⟩ ⟨es⟩ ∧ Within ⟨right⟩ ⟨es⟩ := by
  induction as generalizing bs cs ds es with
  | nil => cases bs <;> cases hab
  | cons v vs ih =>
      rcases mergeValues_cons_eq_some_iff.1 hab with
        ⟨ws, us, rfl, rfl, hRest⟩ | ⟨w, hvw, rfl, rfl⟩
      · rcases mergeValues_cons_eq_some_iff.1 hcd with
          ⟨ds', es', rfl, rfl, hLast⟩ | ⟨u, hvu, rfl, rfl⟩
        · rcases ih hRest hLast with
            ⟨as', bs', left, right, hds, hLeft, hRight,
              hLeftIn, hRightIn⟩
          refine ⟨v :: as', v :: bs', v :: left, v :: right,
            ?_, ?_, ?_, ?_, ?_⟩
          · rw [mergeValues_cons_self, hds]
            rfl
          · rw [mergeValues_cons_self, hLeft]
            rfl
          · rw [mergeValues_cons_self, hRight]
            rfl
          · exact within_cons_cons_iff.2
              ⟨fun _ h => h, hLeftIn⟩
          · exact within_cons_cons_iff.2
              ⟨fun _ h => h, hRightIn⟩
        · rcases within_of_mergeValues hRest with
            ⟨hvs, hws⟩
          refine ⟨u :: vs, u :: ws, .dontCare :: vs,
            .dontCare :: ws, ?_,
            mergeValues_of_complements hvu vs,
            mergeValues_of_complements hvu ws, ?_, ?_⟩
          · rw [mergeValues_cons_self, hRest]
            rfl
          · exact within_cons_cons_iff.2
              ⟨fun _ h => h, hvs⟩
          · exact within_cons_cons_iff.2
              ⟨fun _ h => h, hws⟩
      · rcases mergeValues_cons_eq_some_iff.1 hcd with
          ⟨ds', es', rfl, rfl, hLast⟩ | ⟨u, hCare, _⟩
        · have hAny :
              ∀ value : Value, value.Within .dontCare :=
            fun value => Value.within_iff.2 (Or.inr rfl)
          refine ⟨v :: ds', w :: ds', v :: es', w :: es',
            mergeValues_of_complements hvw ds', ?_, ?_,
            within_cons_cons_iff.2
              ⟨hAny v, Within.refl _⟩,
            within_cons_cons_iff.2
              ⟨hAny w, Within.refl _⟩⟩
          · rw [mergeValues_cons_self, hLast]
            rfl
          · rw [mergeValues_cons_self, hLast]
            rfl
        · cases hCare

/-
  Two merges one after the other fill a square. What merges
  with the whole is itself a merge, of what merges with the
  one half and what merges with the other.
-/
theorem exists_square_of_merge
    {a b c d e : Row}
    (hab : a.merge b = some c)
    (hcd : c.merge d = some e) :
    ∃ a' b' left right : Row,
      a'.merge b' = some d ∧
      a.merge a' = some left ∧
      b.merge b' = some right ∧
      left.Within e ∧ right.Within e := by
  rcases exists_square_of_mergeValues
      (merge_eq_some_iff.1 hab) (merge_eq_some_iff.1 hcd) with
    ⟨as', bs', left, right, hds, hLeft, hRight, hLeftIn,
      hRightIn⟩
  exact ⟨⟨as'⟩, ⟨bs'⟩, ⟨left⟩, ⟨right⟩,
    merge_eq_some_iff.2 hds, merge_eq_some_iff.2 hLeft,
    merge_eq_some_iff.2 hRight, hLeftIn, hRightIn⟩

end Row

------------------------------------------------------------
-- Rows Closed under Partners
------------------------------------------------------------

/-
  Implicants that are listed together with all rows they
  merge with into an implicant.
-/
structure PartnerClosed
    (f : List Bool → Prop)
    (arity : Nat)
    (working : List Row) : Prop where
  implicant : ∀ row ∈ working, row.IsImplicant f arity
  partner :
    ∀ a ∈ working, ∀ b c, a.merge b = some c →
      c.IsImplicant f arity → b ∈ working

section Closure

variable {config : Config}
variable {f : List Bool → Prop}
variable {arity : Nat}
variable {working : List Row}

/- One round leads to rows that are closed again. -/
theorem partnerClosed_merged
    (h : PartnerClosed f arity working) :
    PartnerClosed f arity
      (Round.ofRows config working).merged.toList where
  implicant := by
    intro c hc
    rcases Round.mem_merged_iff.1 hc with
      ⟨a, ha, b, hb, hMerge⟩
    exact Row.isImplicant_of_merge hMerge
      (h.implicant a ha) (h.implicant b hb)
  partner := by
    intro c hc d e hcd he
    rcases Round.mem_merged_iff.1 hc with
      ⟨a, ha, b, hb, hab⟩
    rcases Row.exists_square_of_merge hab hcd with
      ⟨a', b', left, right, hd, hLeft, hRight, hLeftIn,
        hRightIn⟩
    have ha' :=
      h.partner a ha a' left hLeft (he.of_within hLeftIn)
    have hb' :=
      h.partner b hb b' right hRight (he.of_within hRightIn)
    exact Round.mem_merged_iff.2 ⟨a', ha', b', hb', hd⟩

/- A row that is left over lies strictly inside no other. -/
theorem isPrimeImplicant_of_mem_unmerged
    (h : PartnerClosed f arity working)
    {row : Row}
    (hRow : row ∈ (Round.ofRows config working).unmerged) :
    row.IsPrimeImplicant f arity := by
  rcases Round.mem_unmerged_iff.1 hRow with
    ⟨hMem, hUnmerged⟩
  refine ⟨h.implicant row hMem, ?_⟩
  intro outer hOuter hStrict
  rcases Row.strictlyWithin_iff.1 hStrict with
    ⟨hWithin, hNe⟩
  rcases Row.exists_partner_of_within hWithin hNe with
    ⟨other, merged, hMerge, hMerged⟩
  have hOther :=
    h.partner row hMem other merged hMerge
      (hOuter.of_within hMerged)
  rw [hUnmerged other hOther] at hMerge
  cases hMerge

theorem isPrimeImplicant_of_mem_primes
    (h : PartnerClosed f arity working)
    {row : Row}
    (hRow : row ∈ primesOf (rounds config working)) :
    row.IsPrimeImplicant f arity := by
  induction working using roundsInduction config with
  | done => simp [rounds, primesOf] at hRow
  | round first rest ih =>
      rcases mem_primesOf_rounds_iff.1 hRow with
        hUnmerged | hLater
      · exact isPrimeImplicant_of_mem_unmerged h hUnmerged
      · exact ih (partnerClosed_merged h) hLater

/-
  By induction on the rounds. A row inside a prime is that
  prime or merges into a larger row that is still inside.
-/
theorem mem_primesOf_rounds_of_within
    (h : PartnerClosed f arity working)
    {row prime : Row}
    (hRow : row ∈ working)
    (hPrime : prime.IsPrimeImplicant f arity)
    (hWithin : row.Within prime) :
    prime ∈ primesOf (rounds config working) := by
  induction working using roundsInduction config
      generalizing row with
  | done => cases hRow
  | round first rest ih =>
      by_cases hEq : row = prime
      · subst hEq
        refine mem_primesOf_rounds_iff.2
          (Or.inl (Round.mem_unmerged_iff.2 ⟨hRow, ?_⟩))
        intro other hOther
        exact Row.merge_eq_none_of_isPrimeImplicant hPrime
          (h.implicant other hOther)
      · rcases Row.exists_partner_of_within hWithin hEq with
          ⟨other, merged, hMerge, hMerged⟩
        have hOther :=
          h.partner row hRow other merged hMerge
            (hPrime.toIsImplicant.of_within hMerged)
        have hMem :
            merged ∈ (Round.ofRows config
              (first :: rest)).merged :=
          Round.mem_merged_iff.2
            ⟨row, hRow, other, hOther, hMerge⟩
        exact mem_primesOf_rounds_iff.2
          (Or.inr (ih (partnerClosed_merged h) hMem hMerged))

end Closure

------------------------------------------------------------
-- Saturated Tables
------------------------------------------------------------

namespace Table

/-
  A table whose rows are closed under partners, with a row
  inside each prime implicant of its function.
-/
structure IsSaturated
    (table : Table) : Prop where
  partner :
    ∀ a ∈ table.rows, ∀ b c, a.merge b = some c →
      c.IsImplicant table.Holds table.arity →
      b ∈ table.rows
  anchor :
    ∀ prime : Row,
      prime.IsPrimeImplicant table.Holds table.arity →
      ∃ row ∈ table.rows, row.Within prime

section Saturation

variable {config : Config}
variable {table : Table}
variable {primes : RowSet}

theorem isImplicant_of_mem_rows
    {row : Row}
    (hRow : row ∈ table.rows) :
    row.IsImplicant table.Holds table.arity where
  arity_eq := table.row_arity row hRow
  holds := fun _ hSat => ⟨row, hRow, hSat⟩

theorem IsSaturated.partnerClosed
    (h : table.IsSaturated) :
    PartnerClosed table.Holds table.arity
      table.rows.toList where
  implicant := fun _ hRow => isImplicant_of_mem_rows hRow
  partner := h.partner

/- The primes of a saturated table are all there are. -/
theorem mem_reduce_iff_of_isSaturated
    (h : table.IsSaturated)
    (hReduce : table.reduce config = .ok primes)
    {row : Row} :
    row ∈ primes ↔
      row.IsPrimeImplicant table.Holds table.arity := by
  rcases reduce_eq_ok_iff.1 hReduce with ⟨_, rfl⟩
  constructor
  · exact isPrimeImplicant_of_mem_primes h.partnerClosed
  · intro hPrime
    rcases h.anchor row hPrime with ⟨inner, hInner, hWithin⟩
    exact mem_primesOf_rounds_of_within h.partnerClosed
      hInner hPrime hWithin

/- Every half of an implicant is listed by assignments. -/
theorem isSaturated_of_isAssignment
    (hFull :
      ∀ row ∈ table.rows, row.isAssignment = true) :
    table.IsSaturated where
  partner := by
    intro a ha b c hMerge hc
    have hCounts := Row.dontCares_of_merge hMerge
    have hZero := Row.isAssignment_iff.1 (hFull a ha)
    have hAssignment : b.isAssignment = true :=
      Row.isAssignment_iff.2 (by omega)
    rcases Row.exists_ofBools_eq hAssignment with
      ⟨bits, rfl⟩
    apply (holds_iff_ofBools_mem hFull).1
    apply hc.holds bits
    apply Row.right_within_of_merge hMerge
    rw [Row.satisfiedBy_ofBools, decide_eq_true_eq]
  anchor := by
    intro prime hPrime
    rcases prime.exists_satisfiedBy with ⟨bits, hSat⟩
    refine ⟨Row.ofBools bits, ?_, ?_⟩
    · exact (holds_iff_ofBools_mem hFull).1
        (hPrime.holds bits hSat)
    · intro assignment hBits
      rw [Row.satisfiedBy_ofBools, decide_eq_true_eq]
        at hBits
      rw [← hBits]
      exact hSat

/- So are all prime implicants, which merge with no other. -/
theorem isSaturated_of_isPrimeImplicant
    (h : ∀ row : Row, row ∈ table.rows ↔
      row.IsPrimeImplicant table.Holds table.arity) :
    table.IsSaturated where
  partner := by
    intro a ha b c hMerge hc
    have hb := hc.of_within (Row.right_within_of_merge hMerge)
    rw [Row.merge_eq_none_of_isPrimeImplicant
      ((h a).1 ha) hb] at hMerge
    cases hMerge
  anchor := fun prime hPrime =>
    ⟨prime, (h prime).2 hPrime, Row.Within.refl prime⟩

/- Listing the primes of a saturated table saturates too. -/
theorem isSaturated_of_reduce
    {listed : Table}
    (h : table.IsSaturated)
    (hReduce : table.reduce config = .ok primes)
    (hArity : listed.arity = table.arity)
    (hListed : listed.rows = primes) :
    listed.IsSaturated := by
  have hHolds : listed.Holds = table.Holds := by
    funext assignment
    rw [holds_iff_exists_prime hReduce, ← hListed]
    rfl
  apply isSaturated_of_isPrimeImplicant
  intro row
  rw [hListed, hArity, hHolds]
  exact mem_reduce_iff_of_isSaturated h hReduce

end Saturation

end Table

end TwoLevel
