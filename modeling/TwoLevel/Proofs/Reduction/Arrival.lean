import TwoLevel.Proofs.Minimization.Settings

/-
  This file lets the merges of a round arrive in any order. A
  round that gathers its merges may get hold of them in an
  order of its own, different in every round and every run,
  and records them one by one as they come.

  Several merges may give the same row and several may use the
  same position. But recording only ever adds a row and sets a
  flag, so what is recorded in the end does not tell the
  order, and it is what the ordered scan finds. Hence a run is
  determined by the rows it starts from.

  Key definitions include:
    * `Scan.blank`
    * `Scan.record`
    * `Scan.Arrival`
    * `IsRoundOf`
    * `AreRoundsOf`

  Main theorems:
    * `collect_eq_foldl_record`
    * `arrival_iff_perm`
    * `foldl_record_eq_ofRows`
    * `isRoundOf_iff`
    * `areRoundsOf_iff`
    * `reduce_of_any_arrival`
-/

namespace TwoLevel

namespace Scan

------------------------------------------------------------
-- Recording Merges One by One
------------------------------------------------------------

/- What is known of so many rows before the first merge. -/
def blank
    (count : Nat) : Scan where
  merged := ∅
  used := List.replicate count false

/- Add the row of one more merge, and set both its flags. -/
def record
    (scan : Scan)
    (pairing : Pairing) : Scan where
  merged := scan.merged ∪ OrderedSet.ofList [pairing.merged]
  used :=
    (scan.used.set pairing.left true).set pairing.right true

private theorem mem_merged_foldl_record_iff
    {scan : Scan}
    {found : List Pairing}
    {c : Row} :
    c ∈ (found.foldl record scan).merged ↔
      c ∈ scan.merged ∨
        ∃ pairing ∈ found, pairing.merged = c := by
  induction found generalizing scan with
  | nil => simp
  | cons pairing found ih =>
      rw [List.foldl_cons, ih, record,
        OrderedSet.mem_union_iff, OrderedSet.mem_ofList_iff,
        List.mem_singleton, eq_comm, or_assoc]
      simp only [List.mem_cons, exists_eq_or_imp]

private theorem used_foldl_record
    (scan : Scan)
    (found : List Pairing) :
    (found.foldl record scan).used =
      (found.foldl mark scan.used.toArray).toList := by
  induction found generalizing scan with
  | nil => rfl
  | cons pairing found ih =>
      rw [List.foldl_cons, List.foldl_cons, ih]
      simp only [record, mark, List.setIfInBounds_toArray]

/- Gathered merges are recorded one after the other. -/
theorem collect_eq_foldl_record
    (count : Nat)
    (found : List Pairing) :
    collect count found = found.foldl record (blank count) := by
  have hMerged :
      (collect count found).merged =
        (found.foldl record (blank count)).merged := by
    ext c
    rw [mem_merged_collect_iff, mem_merged_foldl_record_iff]
    simp [blank]
  have hUsed :
      (collect count found).used =
        (found.foldl record (blank count)).used := by
    rw [used_foldl_record]
    simp [collect, blank]
  rw [Scan.mk.injEq]
  exact ⟨hMerged, hUsed⟩

------------------------------------------------------------
-- Orders of Arrival
------------------------------------------------------------

/-
  The merges of all pairs of a list of rows, each once, in the
  order in which they arrive.
-/
structure Arrival
    (rows : List Row)
    (found : List Pairing) : Prop where
  once : found.Nodup
  mem_iff :
    ∀ pairing, pairing ∈ found ↔
      ∃ a b, pairing.left < pairing.right ∧
        rows[pairing.left]? = some a ∧
        rows[pairing.right]? = some b ∧
        a.merge b = some pairing.merged

private theorem nodup_pairingsWith
    (row : Row)
    (left right : Nat)
    (rows : List Row) :
    (pairingsWith row left right rows).Nodup := by
  induction rows generalizing right with
  | nil => exact List.nodup_nil
  | cons other rest ih =>
      rw [pairingsWith]
      split
      · refine List.nodup_cons.2 ⟨?_, ih (right + 1)⟩
        intro hMem
        rcases mem_pairingsWith_iff.1 hMem with
          ⟨_, k, _, _, hRight, _⟩
        simp only at hRight
        omega
      · exact ih (right + 1)

private theorem nodup_pairingsFrom
    (start : Nat)
    (rows : List Row) :
    (pairingsFrom start rows).Nodup := by
  induction rows generalizing start with
  | nil => exact List.nodup_nil
  | cons row rows ih =>
      rw [pairingsFrom, List.nodup_append]
      refine ⟨nodup_pairingsWith row start (start + 1) rows,
        ih (start + 1), ?_⟩
      intro pairing hFirst other hOther hEq
      subst hEq
      rcases mem_pairingsWith_iff.1 hFirst with ⟨hLeft, _⟩
      rcases mem_pairingsFrom_iff.1 hOther with
        ⟨i, _, _, _, _, _, _, hLater, _⟩
      omega

/- The orders of arrival are the orders of the merges. -/
theorem arrival_iff_perm
    {rows : List Row}
    {found : List Pairing} :
    Arrival rows found ↔ found.Perm (pairings rows) := by
  have hNodup : (pairings rows).Nodup :=
    nodup_pairingsFrom 0 rows
  constructor
  · intro h
    rw [List.perm_ext_iff_of_nodup h.once hNodup]
    intro pairing
    rw [h.mem_iff, mem_pairings_iff]
  · intro h
    refine ⟨h.nodup_iff.2 hNodup, ?_⟩
    intro pairing
    rw [h.mem_iff, mem_pairings_iff]

theorem arrival_pairings
    (rows : List Row) :
    Arrival rows (pairings rows) :=
  arrival_iff_perm.2 (List.Perm.refl _)

/- The scan does not tell in which order merges arrived. -/
theorem foldl_record_eq_ofRows
    {rows : List Row}
    {found : List Pairing}
    (h : Arrival rows found) :
    found.foldl record (blank rows.length) = ofRows rows := by
  have hMem :
      ∀ pairing, pairing ∈ found ↔ pairing ∈ pairings rows :=
    fun pairing => (arrival_iff_perm.1 h).mem_iff
  calc found.foldl record (blank rows.length)
    _ = collect rows.length found :=
      (collect_eq_foldl_record rows.length found).symm
    _ = exhaustive rows := collect_eq_exhaustive hMem
    _ = ofRows rows := (ofRows_eq_exhaustive rows).symm

end Scan

------------------------------------------------------------
-- Rounds with Merges in Any Order
------------------------------------------------------------

/-
  A round as it may go: the rows are scanned in order, or
  their merges are gathered and recorded as they arrive.
-/
inductive IsRoundOf
    (config : Config)
    (working : List Row) : Round → Prop where
  | scanned
      (hGathers : config.gathers working.length = false) :
      IsRoundOf config working
        { working
          gathered := false
          scan := Scan.ofRows working }
  | gathered
      {found : List Pairing}
      (hGathers : config.gathers working.length = true)
      (hArrival : Scan.Arrival working found) :
      IsRoundOf config working
        { working
          gathered := true
          scan :=
            found.foldl Scan.record
              (Scan.blank working.length) }

/- A run as it may go, from a list of rows on. -/
inductive AreRoundsOf
    (config : Config) : List Row → List Round → Prop where
  | done : AreRoundsOf config [] []
  | round
      {first : Row}
      {rest : List Row}
      {round : Round}
      {later : List Round}
      (hRound : IsRoundOf config (first :: rest) round)
      (hLater :
        AreRoundsOf config round.merged.toList later) :
      AreRoundsOf config (first :: rest) (round :: later)

section Runs

variable {config : Config}

theorem Round.ofRows_eq_scanned
    {working : List Row}
    (hGathers : config.gathers working.length = false) :
    ofRows config working =
      { working
        gathered := false
        scan := Scan.ofRows working } := by
  simp [ofRows, hGathers]

theorem Round.ofRows_eq_gathered
    {working : List Row}
    {found : List Pairing}
    (hGathers : config.gathers working.length = true)
    (hArrival : Scan.Arrival working found) :
    ofRows config working =
      { working
        gathered := true
        scan :=
          found.foldl Scan.record
            (Scan.blank working.length) } := by
  have hListed :=
    Scan.foldl_record_eq_ofRows
      (Scan.arrival_pairings working)
  rw [← Scan.collect_eq_foldl_record] at hListed
  rw [Scan.foldl_record_eq_ofRows hArrival, ← hListed]
  exact if_pos hGathers

/- There is one way for a round to go. -/
theorem isRoundOf_iff
    {working : List Row}
    {round : Round} :
    IsRoundOf config working round ↔
      round = Round.ofRows config working := by
  constructor
  · intro h
    cases h with
    | scanned hGathers =>
        exact (Round.ofRows_eq_scanned hGathers).symm
    | gathered hGathers hArrival =>
        exact (Round.ofRows_eq_gathered hGathers hArrival).symm
  · rintro rfl
    cases hGathers : config.gathers working.length with
    | false =>
        rw [Round.ofRows_eq_scanned hGathers]
        exact IsRoundOf.scanned hGathers
    | true =>
        have hArrival := Scan.arrival_pairings working
        rw [Round.ofRows_eq_gathered hGathers hArrival]
        exact IsRoundOf.gathered hGathers hArrival

/- There is one way for a run to go. -/
theorem areRoundsOf_iff
    {working : List Row}
    {run : List Round} :
    AreRoundsOf config working run ↔
      run = rounds config working := by
  constructor
  · intro h
    induction h with
    | done => rw [rounds]
    | round hRound _ ih =>
        rw [rounds, ih, isRoundOf_iff.1 hRound]
  · rintro rfl
    induction working using roundsInduction config with
    | done =>
        rw [rounds]
        exact AreRoundsOf.done
    | round first rest ih =>
        rw [rounds]
        exact AreRoundsOf.round (isRoundOf_iff.2 rfl) ih

end Runs

------------------------------------------------------------
-- Results
------------------------------------------------------------

namespace Table

/-
  No order of arrival shows in what a round finds out, nor in
  the primes of a run, whichever rounds of it gather their
  merges. So no setting shows in the primes or in the result.
-/
theorem reduce_of_any_arrival :
    (∀ rows found, Scan.Arrival rows found →
      found.foldl Scan.record (Scan.blank rows.length) =
        Scan.ofRows rows) ∧
    (∀ (table : Table) config run,
      table.isEmpty = false →
      AreRoundsOf config table.rows.toList run →
      ∀ config',
        table.reduce config' = .ok (primesOf run)) ∧
    ∀ (table : Table) config config',
      table.reduce config = table.reduce config' ∧
        table.minimize config = table.minimize config' := by
  refine ⟨?_, ?_, ?_⟩
  · intro rows found hArrival
    exact Scan.foldl_record_eq_ofRows hArrival
  · intro table config run hRows hRun config'
    rw [reduce_config config' config, areRoundsOf_iff.1 hRun]
    exact reduce_eq_ok config hRows
  · intro table config config'
    exact ⟨reduce_config config config' table,
      minimize_config config config' table⟩

/-
  Rows of two levels. The first is used by two merges, and two
  merges of the others give the same row.
-/
def crowded : Table where
  arity := 2
  rows :=
    OrderedSet.ofList
      [⟨[.zero, .zero]⟩, ⟨[.zero, .one]⟩, ⟨[.one, .zero]⟩,
        ⟨[.zero, .dontCare]⟩, ⟨[.one, .dontCare]⟩,
        ⟨[.dontCare, .zero]⟩, ⟨[.dontCare, .one]⟩]
  arity_pos := Nat.two_pos
  row_arity := by decide +kernel

/- The merges of the first round arrive in reverse order. -/
theorem reduce_crowded_of_reverse_arrival :
    ∃ found run,
      found = (pairings crowded.rows.toList).reverse ∧
      Scan.Arrival crowded.rows.toList found ∧
      found.foldl Scan.record
          (Scan.blank crowded.rows.toList.length) =
        Scan.ofRows crowded.rows.toList ∧
      crowded.isEmpty = false ∧
      AreRoundsOf { threshold := 0 } crowded.rows.toList run ∧
      crowded.reduce { parallel := false } =
        .ok (primesOf run) := by
  have hRows : crowded.isEmpty = false := by decide +kernel
  have hArrival :=
    Scan.arrival_iff_perm.2
      (List.reverse_perm (pairings crowded.rows.toList))
  have hRun :
      AreRoundsOf { threshold := 0 } crowded.rows.toList
        (rounds { threshold := 0 } crowded.rows.toList) :=
    areRoundsOf_iff.2 rfl
  exact ⟨_, _, rfl, hArrival,
    reduce_of_any_arrival.1 _ _ hArrival, hRows, hRun,
    reduce_of_any_arrival.2.1 crowded _ _ hRows hRun _⟩

end Table

end TwoLevel
