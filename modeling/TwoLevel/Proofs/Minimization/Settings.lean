import TwoLevel.Journal
import TwoLevel.Proofs.Reduction.Rounds

/-
  This file shows that no setting changes what is computed. A
  round finds out the same whether it gathers its merges or
  not, so the rounds, the primes and the result are the same.
  Of the records that are shown only those of the rounds tell
  how they were run, and they are shown on request only.

  Main theorems:
    * `primesOf_rounds_config`
    * `Table.reduce_config`
    * `Table.minimize_config`
    * `Table.shown_journal_config`
-/

namespace TwoLevel

section Settings

variable (config config' : Config)

------------------------------------------------------------
-- Rounds and Primes
------------------------------------------------------------

theorem Round.merged_config
    (working : List Row) :
    (ofRows config working).merged =
      (ofRows config' working).merged := by
  rw [merged, merged, scan_ofRows, scan_ofRows]

theorem Round.unmerged_config
    (working : List Row) :
    (ofRows config working).unmerged =
      (ofRows config' working).unmerged := by
  rw [unmerged, unmerged, scan_ofRows, scan_ofRows,
    working_ofRows, working_ofRows]

/- All rounds leave the same rows unmerged. -/
theorem primesOf_rounds_config
    (working : List Row) :
    primesOf (rounds config working) =
      primesOf (rounds config' working) := by
  induction working using roundsInduction config with
  | done => rw [rounds, rounds]
  | round first rest ih =>
      ext prime
      apply mem_primesOf_rounds_iff.trans
      rw [ih, Round.merged_config config config',
        Round.unmerged_config config config']
      exact mem_primesOf_rounds_iff.symm

namespace Table

variable (table : Table)

theorem reduce_config :
    table.reduce config = table.reduce config' := by
  unfold reduce reduction
  split
  · rfl
  · show Except.ok _ = Except.ok _
    rw [primesOf_rounds_config config config']

theorem minimize_config :
    table.minimize config = table.minimize config' := by
  simp only [minimize, reduce_config config config']

------------------------------------------------------------
-- Records
------------------------------------------------------------

/- The records of a round are for those who ask for them. -/
theorem level_of_mem_roundEvents
    {rounds : List Round}
    {event : Event}
    (h : event ∈ roundEvents rounds) :
    event.level = .debug := by
  rcases List.mem_map.1 h with ⟨⟨⟨round, gained⟩, number⟩,
    _, rfl⟩
  rfl

/- The records that stand out are the same. -/
theorem shown_journal_config :
    (table.journal config).filter (·.level == .info) =
      (table.journal config').filter (·.level == .info) := by
  have hNone :
      ∀ rounds : List Round,
        (roundEvents rounds).filter (·.level == .info) =
          [] := by
    intro rounds
    rw [List.filter_eq_nil_iff]
    intro event hEvent
    rw [level_of_mem_roundEvents hEvent]
    decide
  by_cases hEmpty : table.isEmpty = true
  · simp only [journal, reduction, if_pos hEmpty]
  · simp only [journal, reduction, if_neg hEmpty,
      primesOf_rounds_config config config',
      List.filter_cons, List.filter_append, hNone]

end Table

end Settings

end TwoLevel
