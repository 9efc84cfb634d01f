import ImplicitDiff.Solver.Equations
import ImplicitDiff.Solver.Screening

/-! # Accepted roots

A point that a root search ends at is not a root by itself. It is accepted if the search stayed
inside its budget and if the residual, evaluated once more, is short enough; a residual that is no
number is not. Whatever fails first is reported.
-/

namespace ImplicitDiff.Solver

variable {F : Type}

/-- A solve: it keeps a journal, may fail for a reason that it names, and may end in a fault. -/
abbrev SolveM (F : Type) := ExceptT (Failure F) (SearchM F)

/-- An accepted root and what it took to find it. -/
structure Root (F : Type) where
  /-- The unknowns. -/
  point : List F
  /-- The length of the residual there. -/
  norm : F
  /-- The number of evaluations of the residual in the search. -/
  evaluations : Nat
  /-- The number of evaluations of the Jacobian in the search. -/
  jacobians : Nat
  /-- The number of steps that the search kept. -/
  iterations : Nat
  /-- Why the search stopped. -/
  termination : Termination
deriving Repr

/-- An outcome of screening as a part of a solve. -/
def screened (result : Except (InvalidInput F) Unit) : SolveM F Unit :=
  match result with
  | .ok () => pure ()
  | .error cause => throw (.invalidInput cause)

/-- There have to be as many residuals as unknowns. -/
def requireLength (expected : Nat) (residual : List F) : SolveM F Unit :=
  if residual.length = expected then pure ()
  else throw (.dimensionMismatch expected residual.length)

variable [Arith F]

/-- The last check: the residual at the end of a search has to be short enough. -/
def accept (settings : Settings F) (outcome : RootSearch.Outcome F) (residual : List F) :
    SolveM F (Root F) := do
  let length := norm residual
  if length ≤ settings.functionTolerance then
    note (.accepted length outcome.evaluations outcome.jacobians)
    return {
      point := outcome.point, norm := length, evaluations := outcome.evaluations
      jacobians := outcome.jacobians, iterations := outcome.iterations
      termination := outcome.termination }
  else
    note (.rejected length outcome.termination)
    throw (.unacceptableRoot length settings.functionTolerance)

/-- Solves equations for the unknowns, from a first guess, at plain parameters. -/
def findRoot (equations : Equations F) (guess parameters : List F) (data : Data F)
    (settings : Settings F) : SolveM F (Root F) := do
  screened (screen guess parameters data.reals settings)
  let restricted := equations.atParameters data parameters
  requireLength guess.length (← restricted.residual guess)
  let outcome ← RootSearch.search settings.search restricted.problem guess
  if let .dimensionMismatch actual := outcome.termination then
    throw (.dimensionMismatch guess.length actual)
  -- A search that used up its budget has failed, even if its last step happened to converge.
  if settings.budget ≤ outcome.evaluations then
    note (F := F) (.overspent outcome.evaluations settings.budget outcome.termination)
    throw (.nonConvergence settings.budget outcome.evaluations)
  let residual ← restricted.residual outcome.point
  requireLength guess.length residual
  accept settings outcome residual

/-- The unknowns alone. -/
def solve (equations : Equations F) (guess parameters : List F) (data : Data F)
    (settings : Settings F) : SolveM F (List F) :=
  return (← findRoot equations guess parameters data settings).point

end ImplicitDiff.Solver
