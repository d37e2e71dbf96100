import TwoLevel.Proofs.Minimization.Repetition
import TwoLevel.Proofs.Row.Terms

/-
  This file shows that the expression of a result can be read
  back. Cut at its bars it gives a term for each selected row,
  in row order, and each term gives its row again. So the
  expression has the value of the table, and no other set of
  rows over the same variables is written that way.

  Key definitions include:
    * `Expression.terms?`
    * `Expression.rows?`
    * `Expression.value?`
    * `Minimized.IsOver`
    * `Minimized.ReadsBack`

  Main theorems:
    * `terms?_toText`
    * `rows?_toText`
    * `value?_toText`
    * `toText_inj`
    * `minimize_toText_readsBack`
-/

namespace TwoLevel

------------------------------------------------------------
-- Reading an Expression
------------------------------------------------------------

namespace Expression

/- The literals of each term of a disjunction. -/
def terms?
    (arity : Nat)
    (text : String) : Option (List (List Row.Literal)) :=
  (Text.pieces (Text.spaced '|') text.toList).mapM
    (Row.literals? arity)

/- The rows that the terms stand for, in their order. -/
def rows?
    (arity : Nat)
    (text : String) : Option (List Row) :=
  (terms? arity text).map (List.map (Row.ofLiterals arity))

/- The value of a disjunction of conjunctions. -/
def value?
    (arity : Nat)
    (text : String)
    (assignment : List Bool) : Option Bool :=
  (terms? arity text).map
    (fun terms =>
      terms.any (fun term => term.all (·.metBy assignment)))

/- The expression of no rows has no terms to be read. -/
theorem terms?_false
    (arity : Nat) :
    terms? arity "false" = none := by
  have hLone :
      Text.pieces (Text.spaced '|') "false".toList =
        ["false".toList] :=
    Text.pieces_eq_singleton (by decide)
  have hName :
      Text.pieces (Text.spaced '&') "false".toList =
        ["false".toList] :=
    Text.pieces_eq_singleton (by decide)
  have hTerm :
      Row.literals? arity "false".toList = none := by
    rw [Row.literals?, if_neg (by decide), hName,
      List.mapM_cons]
    rfl
  rw [terms?, hLone, List.mapM_cons, hTerm]
  rfl

end Expression

------------------------------------------------------------
-- Printed Results
------------------------------------------------------------

namespace Minimized

/- The selected rows are over so many variables. -/
def IsOver
    (arity : Nat)
    (result : Minimized) : Prop :=
  ∀ row ∈ result.implicants, row.arity = arity

section Printed

variable {arity : Nat}
variable {result : Minimized}

/- The terms are the pieces between the bars. -/
theorem pieces_toText
    (hSome : result.implicants.isEmpty = false) :
    Text.pieces (Text.spaced '|') result.toText.toList =
      result.implicants.toList.map
        (fun row => (row.toTerm []).toList) := by
  have hText :
      result.toText.toList =
        (Text.spaced '|').intercalate
          (result.implicants.toList.map
            (fun row => (row.toTerm []).toList)) := by
    have hNonempty : result.implicants.isEmpty ≠ true := by
      rw [hSome]
      exact Bool.false_ne_true
    rw [toText, toExpression, if_neg hNonempty,
      String.toList_intercalate, List.map_map]
    rfl
  rw [hText]
  apply Text.pieces_intercalate (by decide)
  · rw [ne_eq, List.map_eq_nil_iff, ← List.isEmpty_iff,
      Bool.not_eq_true]
    exact hSome
  · intro text hMem
    rcases List.mem_map.1 hMem with ⟨row, _, rfl⟩
    exact row.bar_not_mem_toTerm

theorem terms?_toText
    (hOver : result.IsOver arity)
    (hSome : result.implicants.isEmpty = false) :
    Expression.terms? arity result.toText =
      some (result.implicants.toList.map Row.literals) := by
  rw [Expression.terms?, pieces_toText hSome]
  apply mapM_map_eq_some
  intro row hRow
  exact Row.literals?_toTerm
    (hOver row (OrderedSet.mem_toList_iff.1 hRow))

/- The selected rows are found again, in row order. -/
theorem rows?_toText
    (hOver : result.IsOver arity)
    (hSome : result.implicants.isEmpty = false) :
    Expression.rows? arity result.toText =
      some result.implicants.toList := by
  have hRows :
      (result.implicants.toList.map Row.literals).map
          (Row.ofLiterals arity) =
        result.implicants.toList := by
    rw [List.map_map, List.map_congr_left (g := id),
      List.map_id]
    intro row hRow
    exact Row.ofLiterals_literals
      (hOver row (OrderedSet.mem_toList_iff.1 hRow))
  rw [Expression.rows?, terms?_toText hOver hSome,
    Option.map_some, hRows]

/- The expression is true where some selected row holds. -/
theorem value?_toText
    (hOver : result.IsOver arity)
    (hSome : result.implicants.isEmpty = false)
    {assignment : List Bool}
    (hLength : assignment.length = arity) :
    Expression.value? arity result.toText assignment =
      some (result.evaluate assignment) := by
  rw [Expression.value?, terms?_toText hOver hSome,
    Option.map_some, Option.some.injEq, Bool.eq_iff_iff,
    evaluate_iff_exists_implicant, List.any_map,
    List.any_eq_true]
  have hRow :
      ∀ row ∈ result.implicants,
        row.literals.all (·.metBy assignment) =
          row.satisfiedBy assignment := by
    intro row hMem
    have hSame := hLength.trans (hOver row hMem).symm
    exact (Row.satisfiedBy_eq_all_literals hSame).symm
  constructor
  · intro hGiven
    rcases hGiven with ⟨row, hMem, hAll⟩
    rw [OrderedSet.mem_toList_iff] at hMem
    refine ⟨row, hMem, ?_⟩
    rw [← hRow row hMem]
    exact hAll
  · intro hGiven
    rcases hGiven with ⟨row, hMem, hSat⟩
    refine ⟨row, OrderedSet.mem_toList_iff.2 hMem, ?_⟩
    rw [← hRow row hMem] at hSat
    exact hSat

theorem toText_ne_false
    (hOver : result.IsOver arity)
    (hSome : result.implicants.isEmpty = false) :
    result.toText ≠ "false" := by
  intro hFalse
  have hRead := terms?_toText hOver hSome
  rw [hFalse, Expression.terms?_false] at hRead
  cases hRead

theorem rows?_toText_of_isEmpty
    (hNone : result.implicants.isEmpty = true) :
    Expression.rows? arity result.toText = none := by
  rw [toText, toExpression, if_pos hNone, Expression.rows?,
    Expression.terms?_false, Option.map_none]

end Printed

/-
  The expression tells the selected rows, though not the stage
  that selected them.
-/
theorem toText_inj
    {arity : Nat}
    {first second : Minimized}
    (hFirst : first.IsOver arity)
    (hSecond : second.IsOver arity) :
    first.toText = second.toText ↔
      first.implicants = second.implicants := by
  constructor
  · intro hText
    have hRead := congrArg (Expression.rows? arity) hText
    cases hOne : first.implicants.isEmpty with
    | true =>
        rw [rows?_toText_of_isEmpty hOne] at hRead
        cases hTwo : second.implicants.isEmpty with
        | true =>
            rw [OrderedSet.isEmpty_iff] at hOne hTwo
            rw [hOne, hTwo]
        | false =>
            rw [rows?_toText hSecond hTwo] at hRead
            cases hRead
    | false =>
        rw [rows?_toText hFirst hOne] at hRead
        cases hTwo : second.implicants.isEmpty with
        | true =>
            rw [rows?_toText_of_isEmpty hTwo] at hRead
            cases hRead
        | false =>
            rw [rows?_toText hSecond hTwo,
              Option.some.injEq] at hRead
            rw [← first.implicants.ofList_toList, hRead,
              OrderedSet.ofList_toList]
  · intro hImplicants
    rw [toText, toText, toExpression, toExpression,
      hImplicants]

------------------------------------------------------------
-- Results of Minimization
------------------------------------------------------------

/-
  What the expression of a result tells to a reader who knows
  the number of variables: its pieces are the terms of the
  selected rows, ascending, each term gives its row again, and
  the whole has the value of the table.
-/
structure ReadsBack
    (table : Table)
    (result : Minimized) : Prop where
  pieces_eq :
    Text.pieces (Text.spaced '|') result.toText.toList =
      result.implicants.toList.map
        (fun row => (row.toTerm []).toList)
  ascending :
    result.implicants.toList.Pairwise
      (fun a b => compare a b = .lt)
  ofLiterals_eq :
    ∀ row ∈ result.implicants,
      (Row.literals? table.arity
          (row.toTerm []).toList).map
        (Row.ofLiterals table.arity) = some row
  value_iff :
    ∀ assignment, assignment.length = table.arity →
      ∃ value,
        Expression.value? table.arity result.toText
            assignment = some value ∧
          (value = true ↔ table.Holds assignment)
  ne_false : result.toText ≠ "false"

end Minimized

namespace Table

/-
  The expression of a result can be read back, and sets of
  rows over the same variables share their expression only if
  they are the same.
-/
theorem minimize_toText_readsBack
    {config : Config}
    {table : Table}
    {result : Minimized}
    (h : table.minimize config = .ok result) :
    result.ReadsBack table ∧
    result.IsOver table.arity ∧
    ∀ first second : Minimized,
      first.IsOver table.arity →
        second.IsOver table.arity →
          (first.toText = second.toText ↔
            first.implicants = second.implicants) := by
  have hReduce := (exists_chart_of_minimize_eq_ok h).1
  have hOver : result.IsOver table.arity := by
    intro row hRow
    exact arity_of_mem_reduce hReduce
      (mem_primes_of_mem_implicants h hRow)
  have hSome := isEmpty_implicants_eq_false h
  refine ⟨?_, hOver, fun first second hFirst hSecond =>
    Minimized.toText_inj hFirst hSecond⟩
  exact
    { pieces_eq := Minimized.pieces_toText hSome
      ascending := result.implicants.ascending
      ofLiterals_eq := by
        intro row hRow
        rw [Row.literals?_toTerm (hOver row hRow),
          Option.map_some,
          Row.ofLiterals_literals (hOver row hRow)]
      value_iff := by
        intro assignment hLength
        exact ⟨result.evaluate assignment,
          Minimized.value?_toText hOver hSome hLength,
          evaluate_iff_holds h assignment⟩
      ne_false := Minimized.toText_ne_false hOver hSome }

/- Two of the four rows are selected and have a term each. -/
theorem minimize_toText_overlapping_readsBack :
    ∃ result, overlapping.minimize {} = .ok result ∧
      result.toText = "!x1 & x3 | x1" ∧
      result.ReadsBack overlapping := by
  have hOk :
      (overlapping.minimize {}).map Minimized.toText =
        .ok "!x1 & x3 | x1" := by
    decide +kernel
  rcases map_eq_ok_iff.1 hOk with ⟨result, hResult, hText⟩
  exact ⟨result, hResult, hText,
    (minimize_toText_readsBack hResult).1⟩

end Table

end TwoLevel
