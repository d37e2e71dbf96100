import TwoLevel.Minimization

/-
  This file defines the records that a minimization leaves of
  its progress: what each stage started from and found. A
  minimization that fails leaves the records of the stages
  before its failure.

  Key definitions include:
    * `Event`
    * `Event.level`
    * `Event.message`
    * `Selection.events`
    * `Table.journal`
-/

namespace TwoLevel

------------------------------------------------------------
-- Events
------------------------------------------------------------

/- How much attention a record deserves. -/
inductive Level where
  | info
  | debug
  deriving DecidableEq, Repr

/- The written form of a level. -/
def Level.toText : Level → String
  | info => "INFO"
  | debug => "DEBUG"

/- What a record tells. -/
inductive Event where
  | started (rows arity : Nat)
  | roundDone
      (number working merged gained : Nat)
      (gathered : Bool)
  | primesFound (count : Nat)
  | chartBuilt (implicants columns : Nat)
  | columnsFound (relevant columns : Nat)
  | essentialTaken (row : Row)
  | greedyTaken (pick : Pick)
  | selectionDone (essential greedy : Nat)
  | finished (implicants essential : Nat)
  deriving DecidableEq, Repr

namespace Event

/- The start and the end of a minimization stand out. -/
def level : Event → Level
  | started _ _ => .info
  | finished _ _ => .info
  | _ => .debug

private def truth : Bool → String
  | true => "true"
  | false => "false"

/- The text of a record, without its level. -/
def message : Event → String
  | started rows arity =>
      "minimize: " ++ rows.repr ++ " rows over " ++
        arity.repr ++ " variables"
  | roundDone number working merged gained gathered =>
      "reduce: round " ++ number.repr ++
        " (working = " ++ working.repr ++
        ", merged = " ++ merged.repr ++
        ", primes = +" ++ gained.repr ++
        ", parallel = " ++ truth gathered ++ ")"
  | primesFound count =>
      "minimize: " ++ count.repr ++ " prime implicants"
  | chartBuilt implicants columns =>
      "build_chart: " ++ implicants.repr ++
        " implicants x " ++ columns.repr ++ " columns"
  | columnsFound relevant columns =>
      "solve_cover: " ++ relevant.repr ++
        " relevant columns out of " ++ columns.repr
  | essentialTaken row =>
      "solve_cover: essential " ++ row.toText
  | greedyTaken pick =>
      "solve_cover: greedy " ++ pick.row.toText ++
        " covering " ++ pick.gain.repr ++ " columns"
  | selectionDone essential greedy =>
      "solve_cover: " ++ essential.repr ++
        " essential + " ++ greedy.repr ++ " greedy"
  | finished implicants essential =>
      "minimize: " ++ implicants.repr ++
        " implicants selected (" ++ essential.repr ++
        " essential)"

/- The text of a record, after its level. -/
def toText
    (event : Event) : String :=
  event.level.toText ++ " " ++ event.message

end Event

------------------------------------------------------------
-- Records of the Stages
------------------------------------------------------------

/- The record of a round, with its number and its gain. -/
def Round.event
    (round : Round)
    (number gained : Nat) : Event :=
  .roundDone number round.working.length round.merged.size
    gained round.gathered

/- The records of all rounds of a reduction. -/
def roundEvents
    (rounds : List Round) : List Event :=
  (rounds.zip (gainsOf ∅ rounds)).zipIdx.map
    (fun ((round, gained), position) =>
      round.event (position + 1) gained)

/- The records of a selection from so many columns. -/
def Selection.events
    (selection : Selection)
    (columns : Nat) : List Event :=
  .columnsFound selection.relevant columns ::
    selection.essential.map .essentialTaken ++
    selection.greedy.map .greedyTaken ++
    [.selectionDone selection.cover.essential.size
      selection.cover.greedy.length]

------------------------------------------------------------
-- Records of a Minimization
------------------------------------------------------------

/- The records from the charting of the primes on. -/
def coverEvents
    (table : Table)
    (primes : RowSet) : List Event :=
  match Chart.ofPrimes primes with
  | .error _ => []
  | .ok chart =>
      .chartBuilt chart.lines.length chart.width ::
        match chart.select table with
        | .error _ => []
        | .ok selection =>
            selection.events chart.width ++
              [.finished selection.cover.size
                selection.cover.essential.size]

/- The records of the minimization of a table. -/
def Table.journal
    (config : Config)
    (table : Table) : List Event :=
  .started table.size table.arity ::
    match table.reduction config with
    | .error _ => []
    | .ok rounds =>
        roundEvents rounds ++
          .primesFound (primesOf rounds).size ::
            coverEvents table (primesOf rounds)

end TwoLevel
