import TwoLevel.Main
import TwoLevel.Proofs.BitSet.Refinement
import TwoLevel.Proofs.Chart.Agreement
import TwoLevel.Proofs.CommandLine.Outcome
import TwoLevel.Proofs.Cover.Approximation
import TwoLevel.Proofs.Cover.Counts
import TwoLevel.Proofs.Cover.Irrelevance
import TwoLevel.Proofs.Minimization.Arity
import TwoLevel.Proofs.Minimization.Expression
import TwoLevel.Proofs.Minimization.Minimality
import TwoLevel.Proofs.Minimization.Representation
import TwoLevel.Proofs.Minimization.Size
import TwoLevel.Proofs.Reduction.RoundCount
import TwoLevel.Proofs.Reduction.Symmetry
import TwoLevel.Proofs.Table.Construction
import TwoLevel.Session
