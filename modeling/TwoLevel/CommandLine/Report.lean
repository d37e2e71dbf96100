import TwoLevel.CommandLine.Arguments
import TwoLevel.Journal

/-
  This file defines what the command line prints about a
  function: its size, its prime implicants with the essential
  ones marked, on request the chart, the cover, and the
  expression. What was printed before a failure stays.

  Key definitions include:
    * `Report`
    * `report`
    * `progress`
    * `Outcome`
    * `Outcome.shownLines`
    * `Outcome.transcript`
    * `carryOut`
    * `records`
    * `run`
-/

namespace TwoLevel

namespace CommandLine

------------------------------------------------------------
-- Sections
------------------------------------------------------------

/- The line about the table that was read. -/
def tableLine
    (table : Table) : String :=
  "table of " ++ table.size.repr ++ " rows over " ++
    table.arity.repr ++ " variables"

/- A row, with a mark if it is essential. -/
def primeLine
    (result : Minimized)
    (row : Row) : String :=
  "  " ++ row.toText ++
    (if result.cover.essential.contains row then "*" else "")

/- The prime implicants under their number. -/
def primeLines
    (result : Minimized) : List String :=
  ("prime implicants (" ++ result.primes.size.repr ++ "):") ::
    result.primes.toList.map (primeLine result)

/- The chart of the prime implicants, if it is asked for. -/
def chartLines
    (options : Options)
    (result : Minimized) : Except Failure (List String) :=
  if options.chart then
    (Chart.ofPrimes result.primes).map
      (fun chart => "chart:" :: chart.toLines)
  else
    .ok []

/- The selected rows under their number. -/
def coverLines
    (result : Minimized) : List String :=
  ("cover (" ++ result.implicants.size.repr ++ "):") ::
    result.implicants.toList.map
      (fun row => "  " ++ row.toText)

/- The line of the expression. -/
def expressionLine
    (options : Options)
    (result : Minimized) : String :=
  "f = " ++ result.toExpression options.names

------------------------------------------------------------
-- Reports
------------------------------------------------------------

/- The lines printed, and the failure that ended them. -/
structure Report where
  lines : List String
  failure? : Option Failure
  deriving DecidableEq, Repr

/- The report on a minimized function. -/
def resultReport
    (options : Options)
    (result : Minimized) : Report :=
  match chartLines options result with
  | .error failure =>
      { lines := primeLines result
        failure? := some failure }
  | .ok chart =>
      { lines :=
          primeLines result ++ chart ++ coverLines result ++
            [expressionLine options result]
        failure? := none }

/- The report on the table written in a text. -/
def report
    (options : Options)
    (text : String) : Report :=
  match Table.ofText text with
  | .error failure =>
      { lines := [], failure? := some failure }
  | .ok table =>
      match table.minimize options.config with
      | .error failure =>
          { lines := [tableLine table]
            failure? := some failure }
      | .ok result =>
          let rest := resultReport options result
          { lines := tableLine table :: rest.lines
            failure? := rest.failure? }

/- The records that are shown while a table is minimized. -/
def progress
    (options : Options)
    (text : String) : List String :=
  match Table.ofText text with
  | .error _ => []
  | .ok table =>
      ((table.journal options.config).filter
        (fun event =>
          options.verbose || event.level == .info)).map
        Event.toText

/- The last line, with the time taken in milliseconds. -/
def doneLine
    (milliseconds : Nat) : String :=
  let digits := (1000 + milliseconds % 1000).repr
  "Done in " ++ (milliseconds / 1000).repr ++ "." ++
    String.ofList (digits.toList.drop 1) ++ " s"

------------------------------------------------------------
-- Outcomes
------------------------------------------------------------

/-
  How a run of the command line ends: with an answer about the
  command itself, with a report, with a report cut short by a
  failure, or with a refusal of the arguments.
-/
inductive Outcome where
  | answered
  | printed (lines : List String)
  | failed (lines : List String) (message : String)
  | refused
  deriving DecidableEq, Repr

namespace Outcome

/- The number by which the run reports its end. -/
def exitCode : Outcome → UInt32
  | answered => 0
  | printed _ => 0
  | failed _ _ => 1
  | refused => 2

/- The lines that the run prints of a report. -/
def lines : Outcome → List String
  | answered => []
  | printed lines => lines
  | failed lines _ => lines
  | refused => []

/- The text that the run prints: every line is ended. -/
def text
    (outcome : Outcome) : String :=
  String.join (outcome.lines.map (· ++ "\n"))

/-
  The lines that are found in the printed text. They differ
  from the lines that were printed only where a variable name
  holds a line feed or ends a line with a carriage return.
-/
def shownLines
    (outcome : Outcome) : List String :=
  (Text.lines outcome.text.toList).map String.ofList

/-
  The lines with the records of the minimization among them.
  The line about the table is printed before it starts.
-/
def transcript
    (records : List String)
    (outcome : Outcome) : List String :=
  outcome.lines.take 1 ++ records ++ outcome.lines.drop 1

/- The outcome that a report amounts to. -/
def ofReport
    (report : Report) : Outcome :=
  match report.failure? with
  | none => .printed report.lines
  | some failure => .failed report.lines failure.message

/- The outcome of naming a file that is not there. -/
def noSuchFile : Outcome :=
  .failed [] "No such file or directory (os error 2)"

end Outcome

/-
  The outcome of a run with the options that are delivered to
  it, where the given contents are found under the name of a
  file, if there is such a file.
-/
def carryOut
    (contents? : String → Option String)
    (options : Options) : Outcome :=
  match options.text? contents? with
  | none => .noSuchFile
  | some text => .ofReport (report options text)

/- The records that are shown in such a run. -/
def records
    (contents? : String → Option String)
    (options : Options) : List String :=
  match options.text? contents? with
  | none => []
  | some text => progress options text

/- The outcome of what is asked for, if it is understood. -/
def respond
    (contents? : String → Option String) :
    Option Request → Outcome
  | none => .refused
  | some .help => .answered
  | some .version => .answered
  | some (.minimize options) => carryOut contents? options

/- The outcome of a run with the given arguments. -/
def run
    (contents? : String → Option String)
    (arguments : List String) : Outcome :=
  respond contents? (parse arguments)

end CommandLine

end TwoLevel
