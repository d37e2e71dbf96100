import TwoLevel.Text.Quoted

/-
  This file defines everything that can go wrong while a
  function is read, reduced or covered, and the one text in
  which each cause is reported.

  Key definitions include:
    * `Fault`
    * `Fault.message`
    * `OutOfRange`
    * `Failure`
    * `Failure.message`
    * `Failure.isMalformed`
-/

namespace TwoLevel

------------------------------------------------------------
-- Faults of an Input
------------------------------------------------------------

/-
  The ways in which an input contradicts itself or the data
  it is combined with.
-/
inductive Fault where
  | arityMismatch (row expected got : Nat)
  | chartMismatch (chart table : Nat)
  | zeroArity
  | arityTooLarge (arity : Nat)
  | invalidValue (text : String)
  | mintermOutOfRange (index arity : Nat)
  | uncoverable (assignment : String)
  deriving DecidableEq, Repr

namespace Fault

/-
  A fault names the data at which it was found. A value that
  cannot be read is shown quoted.
-/
def message : Fault → String
  | arityMismatch row expected got =>
      "row " ++ row.repr ++ " has length " ++ got.repr ++
        ", expected arity " ++ expected.repr
  | chartMismatch chart table =>
      "chart has arity " ++ chart.repr ++
        ", table has arity " ++ table.repr
  | zeroArity =>
      "arity must be at least 1"
  | arityTooLarge arity =>
      "arity " ++ arity.repr ++
        " is too large to enumerate all assignments"
  | invalidValue text =>
      "invalid value " ++ Text.quoted text
  | mintermOutOfRange index arity =>
      "minterm " ++ index.repr ++
        " is out of range for arity " ++ arity.repr
  | uncoverable assignment =>
      "assignment " ++ assignment ++
        " is not satisfied by any implicant"

end Fault

------------------------------------------------------------
-- Indices Beyond a Width
------------------------------------------------------------

/- An index that a set of the given width cannot hold. -/
structure OutOfRange where
  index : Nat
  width : Nat
  deriving DecidableEq, Repr

/- The index and the width are both reported. -/
def OutOfRange.message
    (fault : OutOfRange) : String :=
  "bit index " ++ fault.index.repr ++
    " out of range for width " ++ fault.width.repr

------------------------------------------------------------
-- Failures of a Computation
------------------------------------------------------------

/-
  The ways in which a computation ends without a result. A
  malformed input is kept apart from an input that is merely
  empty, since callers treat the two differently.
-/
inductive Failure where
  | malformed (fault : Fault)
  | emptyInput (what : String)
  | degenerateChart
  | outOfRange (fault : OutOfRange)
  deriving DecidableEq, Repr

namespace Failure

/- The text under which a failure is reported. -/
def message : Failure → String
  | malformed fault => "malformed input: " ++ fault.message
  | emptyInput what => "empty input: " ++ what
  | degenerateChart =>
      "degenerate chart: no assignment columns"
  | outOfRange fault => fault.message

/- Whether the input itself is at fault. -/
def isMalformed : Failure → Bool
  | malformed _ => true
  | _ => false

/- The failure of a computation that needs table rows. -/
def emptyTable : Failure :=
  emptyInput "evaluation table"

/- The failure of a computation that needs implicants. -/
def emptyPrimes : Failure :=
  emptyInput "prime implicant set"

end Failure

end TwoLevel
