import TwoLevel.Cover
import TwoLevel.Reduction.Basic

/-
  This file defines minimization as a whole: from a table to
  its prime implicants, on to their chart, and to a cover of
  the table. The result is a disjunction of conjunctions that
  can be evaluated and written out.

  Key definitions include:
    * `Minimized`
    * `Table.minimize`
    * `Minimized.evaluate`
    * `Minimized.toExpression`
-/

namespace TwoLevel

/- The prime implicants of a function, and a cover of it. -/
structure Minimized where
  arity : Nat
  primes : RowSet
  cover : Cover
  deriving DecidableEq

/- Reduce a table, chart its primes, and select a cover. -/
def Table.minimize
    (config : Config)
    (table : Table) : Except Failure Minimized := do
  let primes ← table.reduce config
  let chart ← Chart.ofPrimes primes
  let cover ← chart.cover table
  return { arity := table.arity, primes, cover }

namespace Minimized

/- The rows of the cover, ascending. -/
def implicants
    (result : Minimized) : RowSet :=
  result.cover.implicants

/- The value of the function: some selected row holds. -/
def evaluate
    (result : Minimized)
    (assignment : List Bool) : Bool :=
  result.cover.essential.toList.any
      (fun row => row.satisfiedBy assignment) ||
    result.cover.greedy.any
      (fun row => row.satisfiedBy assignment)

/-
  The disjunction of the terms of the cover. A disjunction of
  no terms is false.
-/
def toExpression
    (result : Minimized)
    (names : List String) : String :=
  if result.implicants.isEmpty then
    "false"
  else
    " | ".intercalate
      (result.implicants.toList.map
        (fun row => row.toTerm names))

/- The expression with all variables numbered. -/
def toText
    (result : Minimized) : String :=
  result.toExpression []

end Minimized

end TwoLevel
