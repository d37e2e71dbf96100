import TwoLevel.Minimization

/-
  This file defines sessions: a table, a set of primes, a
  chart and a cover that are produced one from another, step
  by step. A step that needs a part that is not there, or that
  fails, yields no new session.

  Key definitions include:
    * `Session`
    * `Session.Setback`
    * `Session.reduce`
    * `Session.drawChart`
    * `Session.solve`
    * `Session.tableOfPrimes`
    * `Session.tableOfCover`
    * `Session.tableOfMinterms`
-/

namespace TwoLevel

/- The parts produced so far. -/
structure Session where
  table? : Option Table := none
  primes? : Option RowSet := none
  chart? : Option Chart := none
  cover? : Option Cover := none

namespace Session

------------------------------------------------------------
-- Setbacks
------------------------------------------------------------

/- Why a step yields nothing. -/
inductive Setback where
  | missing
  | failed (failure : Failure)
  deriving DecidableEq, Repr

/- A part that must be there. -/
private def need
    {α : Type} : Option α → Except Setback α
  | none => .error .missing
  | some part => .ok part

/- A computation that must succeed. -/
private def attempt
    {α : Type}
    (result : Except Failure α) : Except Setback α :=
  result.mapError .failed

------------------------------------------------------------
-- Parts Given from Outside
------------------------------------------------------------

/- Replace the table. -/
def load
    (session : Session)
    (table : Table) : Session :=
  { session with table? := some table }

/- Replace the primes. -/
def setPrimes
    (session : Session)
    (primes : RowSet) : Session :=
  { session with primes? := some primes }

------------------------------------------------------------
-- Parts Produced from Others
------------------------------------------------------------

/- The primes become those of the table. -/
def reduce
    (config : Config)
    (session : Session) : Except Setback Session := do
  let table ← need session.table?
  let primes ← attempt (table.reduce config)
  return session.setPrimes primes

/- The chart becomes that of the primes. -/
def drawChart
    (session : Session) : Except Setback Session := do
  let primes ← need session.primes?
  let chart ← attempt (Chart.ofPrimes primes)
  return { session with chart? := some chart }

/- The cover becomes the one of the table on the chart. -/
def solve
    (session : Session) : Except Setback Session := do
  let chart ← need session.chart?
  let table ← need session.table?
  let cover ← attempt (chart.cover table)
  return { session with cover? := some cover }

/- The table becomes that of the primes. -/
def tableOfPrimes
    (arity : Nat)
    (session : Session) : Except Setback Session := do
  let primes ← need session.primes?
  let table ← attempt (Table.ofRows arity primes.toList)
  return session.load table

/- The table becomes that of the selected rows. -/
def tableOfCover
    (arity : Nat)
    (session : Session) : Except Setback Session := do
  let cover ← need session.cover?
  let table ←
    attempt (Table.ofRows arity cover.implicants.toList)
  return session.load table

/- The primes become the selected rows. -/
def primesOfCover
    (session : Session) : Except Setback Session := do
  let cover ← need session.cover?
  return session.setPrimes cover.implicants

/- The table becomes that of its own minterms. -/
def tableOfMinterms
    (arity : Nat)
    (session : Session) : Except Setback Session := do
  let table ← need session.table?
  let minterms ← attempt table.minterms
  let table ←
    attempt (Table.ofMinterms arity minterms.toList)
  return session.load table

------------------------------------------------------------
-- Answers
------------------------------------------------------------

/- The minterms of the table. -/
def minterms
    (session : Session) :
    Except Setback (OrderedSet Nat) := do
  let table ← need session.table?
  attempt table.minterms

/- The minimization of the table. -/
def minimize
    (config : Config)
    (session : Session) : Except Setback Minimized := do
  let table ← need session.table?
  attempt (table.minimize config)

end Session

end TwoLevel
