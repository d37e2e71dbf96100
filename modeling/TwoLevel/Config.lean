/-
  This file defines how a minimization is asked to run. No
  setting changes what is computed.

  Key definitions include:
    * `Config`
    * `Config.gathers`
-/

namespace TwoLevel

/-
  Whether the merges of a round may be gathered before they
  are recorded, and from how many rows on that is worthwhile.
-/
structure Config where
  parallel : Bool := true
  threshold : Nat := 64
  deriving DecidableEq, Repr

/- Whether a round over so many rows gathers its merges. -/
def Config.gathers
    (config : Config)
    (count : Nat) : Bool :=
  config.parallel && decide (config.threshold ≤ count)

end TwoLevel
