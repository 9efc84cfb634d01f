import ImplicitDiff.Log
import ImplicitDiff.Proofs.Dense.ExtendedNorm
import ImplicitDiff.Proofs.Dense.Triangular
import ImplicitDiff.Proofs.Derivative.Remainder
import ImplicitDiff.Proofs.Powers
import ImplicitDiff.Proofs.Program.Dependence
import ImplicitDiff.Proofs.Program.Layout
import ImplicitDiff.Proofs.Program.Quotients
import ImplicitDiff.Proofs.RootSearch.Invariant
import ImplicitDiff.Proofs.RootSearch.LinearRun
import ImplicitDiff.Proofs.RootSearch.Rescaling
import ImplicitDiff.Proofs.RootSearch.Secant
import ImplicitDiff.Proofs.Solver.Calls
import ImplicitDiff.Proofs.Solver.ChainRule
import ImplicitDiff.Proofs.Solver.FiniteRoots
import ImplicitDiff.Proofs.Solver.InfiniteResiduals
import ImplicitDiff.Proofs.Solver.Linearized
import ImplicitDiff.Proofs.Solver.NonFinite
import ImplicitDiff.Proofs.Solver.Shapes
import ImplicitDiff.Proofs.Tape.Counters
import ImplicitDiff.Proofs.Tape.Pairing
import ImplicitDiff.Proofs.Tape.Reach
import ImplicitDiff.Proofs.Tape.Unskipped
import ImplicitDiff.Proofs.Workspace.Isolation
