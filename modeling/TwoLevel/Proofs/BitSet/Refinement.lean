import TwoLevel.Proofs.BitSet.IndexSet
import TwoLevel.Proofs.BitSet.Listing

/-
  This file proves that bit sets are plain sets of indices to
  everyone who gives them commands. Each operation on words
  does to the members what the plain operation does, one
  command is answered alike, and so are all commands of a run,
  whatever the widths.

  Key definitions include:
    * `BitSet.toIndexSet`
    * `Bank.toIndexSets`

  Main theorems:
    * `toIndexSet_extend`
    * `interSize_eq_card`
    * `toIndexSet_inj`
    * `apply_toIndexSet`
    * `step_toIndexSets`
    * `run_toIndexSets`
    * `run_create_eq`
-/

namespace TwoLevel

namespace BitSet

------------------------------------------------------------
-- The Plain Set of a Bit Set
------------------------------------------------------------

/- The members without the words. -/
def toIndexSet
    (s : BitSet) : IndexSet where
  width := s.width
  members := s.toList.toFinset
  lt_width := by
    intro i hi
    rw [List.mem_toFinset, mem_toList_iff] at hi
    exact lt_width_of_contains hi

@[simp] theorem width_toIndexSet
    (s : BitSet) :
    s.toIndexSet.width = s.width :=
  rfl

@[simp] theorem mem_toIndexSet_iff
    {s : BitSet}
    {i : Nat} :
    i ∈ s.toIndexSet.members ↔ s.contains i = true := by
  rw [toIndexSet, List.mem_toFinset, mem_toList_iff]

/- Nothing but the representation is forgotten. -/
theorem toIndexSet_inj
    {s t : BitSet} :
    s.toIndexSet = t.toIndexSet ↔ s = t := by
  constructor
  · intro h
    have hWidth : s.width = t.width :=
      congrArg IndexSet.width h
    apply ext_contains hWidth
    intro i
    rw [Bool.eq_iff_iff, ← mem_toIndexSet_iff, h,
      mem_toIndexSet_iff]
  · intro h
    rw [h]

theorem nodup_toList
    (s : BitSet) :
    s.toList.Nodup :=
  s.toList_ascending.imp (fun h => Nat.ne_of_lt h)

theorem toIndexSet_create
    (origin : Bank.Origin) :
    origin.create.toIndexSet = IndexSet.create origin := by
  cases origin with
  | empty width =>
      ext i
      · rfl
      · simp [Bank.Origin.create, IndexSet.create]
  | full width =>
      ext i
      · rfl
      · simp [Bank.Origin.create, IndexSet.create]

------------------------------------------------------------
-- Operations
------------------------------------------------------------

theorem toIndexSet_add
    (s : BitSet)
    (index : Nat)
    (h : index < s.width) :
    (s.add index h).toIndexSet = s.toIndexSet.add index h := by
  ext i
  · simp [IndexSet.add]
  · simp [IndexSet.add, or_comm]

theorem toIndexSet_erase
    (s : BitSet)
    (index : Nat) :
    (s.erase index).1.toIndexSet =
      s.toIndexSet.erase index := by
  ext i
  · simp [IndexSet.erase, IndexSet.restrict]
  · simp [IndexSet.erase, IndexSet.restrict, and_comm]

theorem toIndexSet_retain
    (s : BitSet)
    (keep : Nat → Bool) :
    (s.retain keep).toIndexSet = s.toIndexSet.retain keep := by
  ext i
  · simp [IndexSet.retain, IndexSet.restrict]
  · simp [IndexSet.retain, IndexSet.restrict]

theorem toIndexSet_diff
    (s t : BitSet) :
    (s.diff t).toIndexSet =
      s.toIndexSet.diff t.toIndexSet := by
  ext i
  · simp [IndexSet.diff, IndexSet.restrict]
  · simp [IndexSet.diff, IndexSet.restrict]

/-
  By induction on the indices. Those before the first that is
  refused become members, and it is the one reported.
-/
theorem toIndexSet_extend
    (s : BitSet)
    (indices : List Nat) :
    (s.extend indices).1.toIndexSet =
        s.toIndexSet.extend indices ∧
      (s.extend indices).2 =
        (s.toIndexSet.forbidden? indices).map
          (fun index => ⟨index, s.width⟩) := by
  induction indices generalizing s with
  | nil => exact ⟨IndexSet.extend_nil.symm, rfl⟩
  | cons index indices ih =>
      by_cases h : index < s.width
      · have hPlain : index < s.toIndexSet.width := h
        rcases ih (s.add index h) with ⟨hSet, hFault⟩
        rw [extend, dif_pos h,
          IndexSet.extend_cons_of_lt hPlain,
          IndexSet.forbidden?_cons_of_lt hPlain]
        refine ⟨?_, ?_⟩
        · rw [hSet, toIndexSet_add]
        · rw [hFault, width_add, toIndexSet_add]
          rfl
      · have hPlain : s.toIndexSet.width ≤ index :=
          Nat.le_of_not_lt h
        rw [extend, dif_neg h,
          IndexSet.extend_cons_of_le hPlain,
          IndexSet.forbidden?_cons_of_le hPlain]
        exact ⟨rfl, rfl⟩

------------------------------------------------------------
-- Answers
------------------------------------------------------------

theorem size_eq_card
    (s : BitSet) :
    s.size = s.toIndexSet.members.card := by
  rw [size_eq_length, toIndexSet,
    List.toFinset_card_of_nodup s.nodup_toList]

theorem isEmpty_eq_decide
    (s : BitSet) :
    s.isEmpty = decide (s.toIndexSet.members = ∅) := by
  rw [isEmpty, size_eq_card, Bool.eq_iff_iff, beq_iff_eq,
    decide_eq_true_eq, Finset.card_eq_zero]

theorem contains_eq_decide
    (s : BitSet)
    (index : Nat) :
    s.contains index =
      decide (index ∈ s.toIndexSet.members) := by
  rw [Bool.eq_iff_iff, decide_eq_true_eq,
    mem_toIndexSet_iff]

theorem members_eq_sort
    (s : BitSet) :
    s.members = s.toIndexSet.members.sort := by
  rw [members_eq_toList, toIndexSet, eq_comm,
    List.toFinset_sort _ s.nodup_toList]
  exact s.toList_ascending.imp Nat.le_of_lt

theorem first?_eq_head?_sort
    (s : BitSet) :
    s.first? = s.toIndexSet.members.sort.head? := by
  rw [← members_eq_sort, members_eq_toList, toList,
    List.head?_filter, first?]

/- Words that one set lacks have no common members. -/
theorem interSize_eq_card
    (s t : BitSet) :
    s.interSize t =
      (s.toIndexSet.members ∩ t.toIndexSet.members).card := by
  have hSet :
      s.toIndexSet.members ∩ t.toIndexSet.members =
        (s.toList.filter t.contains).toFinset := by
    ext i
    simp
  rw [interSize_eq_length, hSet,
    List.toFinset_card_of_nodup (s.nodup_toList.filter _)]

theorem decide_eq_eq_decide
    (s t : BitSet) :
    decide (s = t) =
      decide (s.toIndexSet.width = t.toIndexSet.width ∧
        s.toIndexSet.members = t.toIndexSet.members) := by
  rw [decide_eq_decide, ← toIndexSet_inj]
  constructor
  · intro h
    rw [h]
    exact ⟨rfl, rfl⟩
  · intro hGiven
    rcases hGiven with ⟨hWidth, hMembers⟩
    ext i
    · exact hWidth
    · rw [hMembers]

end BitSet

------------------------------------------------------------
-- Runs
------------------------------------------------------------

namespace Bank

/- The plain sets of a collection. -/
def toIndexSets
    (bank : Bank) : List IndexSet :=
  bank.sets.map BitSet.toIndexSet

theorem getElem?_toIndexSets
    (bank : Bank)
    (number : Nat) :
    bank.toIndexSets[number]? =
      bank.sets[number]?.map BitSet.toIndexSet :=
  List.getElem?_map

/- One command has the same answer and the same effect. -/
theorem apply_toIndexSet
    (bank : Bank)
    (set : BitSet)
    (command : Command) :
    IndexSet.apply bank.toIndexSets set.toIndexSet command =
      ((bank.apply set command).1,
        (bank.apply set command).2.toIndexSet) := by
  cases command with
  | insert index =>
      rw [IndexSet.apply, apply, BitSet.insert]
      by_cases h : index < set.width
      · have hPlain : index < set.toIndexSet.width := h
        rw [dif_pos h, dif_pos hPlain]
        simp only [BitSet.contains_eq_decide, decide_not,
          BitSet.toIndexSet_add]
      · have hPlain : ¬ index < set.toIndexSet.width := h
        rw [dif_neg h, dif_neg hPlain]
        rfl
  | erase index =>
      simp only [IndexSet.apply, apply, BitSet.erase_snd,
        BitSet.contains_eq_decide, BitSet.toIndexSet_erase]
  | contains index =>
      rw [IndexSet.apply, apply, BitSet.contains_eq_decide]
  | extend indices =>
      rcases BitSet.toIndexSet_extend set indices with
        ⟨hSet, hFault⟩
      rw [IndexSet.apply, apply, ← hSet]
      generalize set.extend indices = extended at hFault ⊢
      rcases extended with ⟨after, fault?⟩
      cases hForbidden :
          set.toIndexSet.forbidden? indices with
      | none =>
          rw [hForbidden] at hFault
          cases hFault
          rfl
      | some index =>
          rw [hForbidden] at hFault
          cases hFault
          rfl
  | retain keep =>
      rw [IndexSet.apply, apply, BitSet.toIndexSet_retain]
  | interSize other =>
      rw [IndexSet.apply, apply, getElem?_toIndexSets]
      cases bank.sets[other]? with
      | none => rfl
      | some second =>
          simp only [Option.map_some, BitSet.interSize_eq_card]
  | diff other =>
      rw [IndexSet.apply, apply, getElem?_toIndexSets]
      cases bank.sets[other]? with
      | none => rfl
      | some second =>
          simp only [Option.map_some, BitSet.toIndexSet_diff]
  | copy other =>
      rw [IndexSet.apply, apply, getElem?_toIndexSets]
      cases bank.sets[other]? with
      | none => rfl
      | some second =>
          rfl
  | equals other =>
      rw [IndexSet.apply, apply, getElem?_toIndexSets]
      cases bank.sets[other]? with
      | none => rfl
      | some second =>
          simp only [Option.map_some,
            BitSet.decide_eq_eq_decide]
  | size => rw [IndexSet.apply, apply, BitSet.size_eq_card]
  | isEmpty =>
      rw [IndexSet.apply, apply, BitSet.isEmpty_eq_decide]
  | first =>
      rw [IndexSet.apply, apply, BitSet.next_ofSet,
        BitSet.first?_eq_head?_sort]
  | members =>
      rw [IndexSet.apply, apply, BitSet.members_eq_sort]

theorem step_toIndexSets
    (bank : Bank)
    (target : Nat)
    (command : Command) :
    IndexSet.step bank.toIndexSets target command =
      ((bank.step target command).1,
        (bank.step target command).2.toIndexSets) := by
  rw [IndexSet.step, step, getElem?_toIndexSets]
  cases bank.sets[target]? with
  | none => rfl
  | some set =>
      simp only [Option.map_some, apply_toIndexSet]
      rw [toIndexSets, toIndexSets, List.map_set]

/- By induction on the commands, one step after the other. -/
theorem run_toIndexSets
    (bank : Bank)
    (commands : List (Nat × Command)) :
    IndexSet.run bank.toIndexSets commands =
      ((bank.run commands).1,
        (bank.run commands).2.toIndexSets) := by
  induction commands generalizing bank with
  | nil => rfl
  | cons first rest ih =>
      rcases first with ⟨target, command⟩
      simp only [IndexSet.run, run, step_toIndexSets, ih]

theorem toIndexSets_create
    (origins : List Origin) :
    (create origins).toIndexSets =
      origins.map IndexSet.create := by
  rw [toIndexSets, create, List.map_map]
  exact List.map_congr_left
    (fun origin _ => BitSet.toIndexSet_create origin)

/-
  Sets that begin empty or full answer all commands as plain
  sets do, and in the end they stand for the plain sets that
  come of the commands.
-/
theorem run_create_eq
    (origins : List Origin)
    (commands : List (Nat × Command)) :
    ((create origins).run commands).1 =
        (IndexSet.run (origins.map IndexSet.create)
          commands).1 ∧
      ((create origins).run commands).2.sets.map
          BitSet.toIndexSet =
        (IndexSet.run (origins.map IndexSet.create)
          commands).2 := by
  rw [← toIndexSets_create, run_toIndexSets]
  exact ⟨rfl, rfl⟩

/- A short set is taken off a long one, of two words. -/
example :
    ((create [.full 66, .empty 3]).run
      [(1, .extend [2, 3, 1]), (0, .diff 1), (0, .size),
        (0, .retain (fun i => decide (60 < i))),
        (0, .members), (1, .members)]).1 =
      [.refused ⟨3, 3⟩, .done, .number 65, .done,
        .indices [61, 62, 63, 64, 65], .indices [2]] := by
  decide +kernel

end Bank

end TwoLevel
