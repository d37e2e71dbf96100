import TwoLevel.Proofs.Cover.Residue

/-
  This file settles the second stage of the selection. While
  every live column has a candidate there is a best line, and
  selecting it leaves a residue of the same kind. So the stage
  ends without failure, and with no column live.

  Key definitions include:
    * `GreedyRun`

  Main theorems:
    * `takeGreedy_eq_ok_iff`
    * `exists_takeGreedy_eq_ok`
    * `leaves_of_greedyRun`
-/

namespace TwoLevel

theorem BitSet.first?_eq_none_iff
    {s : BitSet} :
    s.first? = none ↔ ∀ i, s.contains i ≠ true := by
  rw [BitSet.first?, List.find?_eq_none]
  constructor
  · intro h i hi
    exact h i (List.mem_range.2 (lt_width_of_contains hi)) hi
  · intro h i _
    exact h i

theorem BitSet.contains_of_first?_eq_some
    {s : BitSet}
    {i : Nat}
    (h : s.first? = some i) :
    s.contains i = true :=
  List.find?_some h

/- Some line is best, unless there is none. -/
theorem best?_eq_none_iff
    {live : BitSet}
    {lines : List Chart.Line} :
    best? live lines = none ↔ lines = [] := by
  cases lines with
  | nil => exact ⟨fun _ => rfl, fun _ => rfl⟩
  | cons line lines =>
      unfold best?
      split
      · simp
      · split
        · simp
        · simp

------------------------------------------------------------
-- Steps of the Greedy Stage
------------------------------------------------------------

section Steps

variable {arity column : Nat}
variable {residue : Residue}

theorem takeGreedy_of_dead
    (hDead : residue.live.first? = none) :
    takeGreedy arity residue = .ok [] := by
  rw [takeGreedy, hDead]

theorem takeGreedy_of_none
    (hLive : residue.live.first? = some column)
    (hNone :
      best? residue.live residue.prune.candidates = none) :
    takeGreedy arity residue =
      .error (.malformed
        (.uncoverable
          (Row.ofIndex column arity).toText)) := by
  rw [takeGreedy, hLive]
  dsimp only
  split
  · rfl
  · rename_i line gain hBest
    rw [hNone] at hBest
    cases hBest

theorem takeGreedy_of_best
    {line : Chart.Line}
    {gain : Nat}
    (hLive : residue.live.first? = some column)
    (hBest :
      best? residue.live residue.prune.candidates =
        some (line, gain)) :
    takeGreedy arity residue =
      (takeGreedy arity (residue.prune.take line)).map
        ({ row := line.row, gain } :: ·) := by
  rw [takeGreedy, hLive]
  dsimp only
  split
  · rename_i hNone
    rw [hNone] at hBest
    cases hBest
  · rename_i other most hOther
    rw [hOther] at hBest
    cases hBest
    rfl

end Steps

------------------------------------------------------------
-- Runs of the Greedy Stage
------------------------------------------------------------

/- The picks that lead from a residue to no live column. -/
inductive GreedyRun : Residue → List Pick → Prop where
  | done
      {residue : Residue}
      (hDead : residue.live.first? = none) :
      GreedyRun residue []
  | pick
      {residue : Residue}
      {column : Nat}
      {line : Chart.Line}
      {gain : Nat}
      {picks : List Pick}
      (hLive : residue.live.first? = some column)
      (hBest :
        best? residue.live residue.prune.candidates =
          some (line, gain))
      (hRest : GreedyRun (residue.prune.take line) picks) :
      GreedyRun residue ({ row := line.row, gain } :: picks)

section Invariant

variable {arity : Nat}
variable {initial residue : Residue}
variable {taken : List Row}
variable {picks : List Pick}

theorem takeGreedy_eq_ok_iff :
    takeGreedy arity residue = .ok picks ↔
      GreedyRun residue picks := by
  constructor
  · intro h
    induction residue using takeGreedy.induct
        generalizing picks with
    | case1 residue hDead =>
        rw [takeGreedy_of_dead hDead] at h
        cases h
        exact .done hDead
    | case2 residue column hLive hNone =>
        rw [takeGreedy_of_none hLive hNone] at h
        cases h
    | case3 residue column hLive line gain hBest _ ih =>
        rw [takeGreedy_of_best hLive hBest,
          map_eq_ok_iff] at h
        rcases h with ⟨rest, hRest, rfl⟩
        exact .pick hLive hBest (ih hRest)
  · intro h
    induction h with
    | done hDead => exact takeGreedy_of_dead hDead
    | pick hLive hBest _ ih =>
        rw [takeGreedy_of_best hLive hBest, ih]
        rfl

theorem leaves_prune_take
    (hLeaves : initial.Leaves taken residue)
    (hDistinct : initial.Distinct)
    {line : Chart.Line}
    {gain : Nat}
    (hBest :
      best? residue.live residue.prune.candidates =
        some (line, gain)) :
    initial.Leaves (taken ++ [line.row])
      (residue.prune.take line) :=
  Residue.leaves_take (Residue.leaves_prune hLeaves)
    hDistinct (mem_of_best?_eq_some hBest).1

/-
  The stage does not fail. A live column keeps a candidate,
  that one gains, so pruning keeps it and some line is best.
-/
theorem exists_takeGreedy_eq_ok
    (arity : Nat)
    (hLeaves : initial.Leaves taken residue)
    (hDistinct : initial.Distinct)
    (hCoverable : initial.Coverable) :
    ∃ picks, takeGreedy arity residue = .ok picks := by
  induction residue using takeGreedy.induct
      generalizing taken with
  | case1 residue hDead =>
      exact ⟨[], takeGreedy_of_dead hDead⟩
  | case2 residue column hLive hNone =>
      rcases Residue.coverable_of_leaves
          (Residue.leaves_prune hLeaves) hCoverable column
          (BitSet.contains_of_first?_eq_some hLive) with
        ⟨line, hLine, _⟩
      rw [best?_eq_none_iff.1 hNone] at hLine
      cases hLine
  | case3 residue column hLive line gain hBest _ ih =>
      rcases ih
          (leaves_prune_take hLeaves hDistinct hBest) with
        ⟨picks, hPicks⟩
      refine ⟨{ row := line.row, gain } :: picks, ?_⟩
      rw [takeGreedy_of_best hLive hBest, hPicks]
      rfl

/- Every pick is a candidate's row, and nothing stays live. -/
theorem leaves_of_greedyRun
    (hLeaves : initial.Leaves taken residue)
    (hDistinct : initial.Distinct)
    (hRun : GreedyRun residue picks) :
    ∃ last,
      initial.Leaves (taken ++ picks.map Pick.row) last ∧
        ∀ column, last.live.contains column ≠ true := by
  induction hRun generalizing taken with
  | @done residue hDead =>
      refine ⟨residue, ?_, BitSet.first?_eq_none_iff.1 hDead⟩
      rw [List.map_nil, List.append_nil]
      exact hLeaves
  | pick hLive hBest _ ih =>
      rcases ih
          (leaves_prune_take hLeaves hDistinct hBest) with
        ⟨last, hLast, hDead⟩
      rw [List.append_assoc] at hLast
      exact ⟨last, hLast, hDead⟩

end Invariant

end TwoLevel
