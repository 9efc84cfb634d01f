/-! # Why a root search stops -/

namespace ImplicitDiff

/-- Why a root search stopped. -/
inductive Termination where
  /-- The trust radius fell below the tolerance, relative to the scaled length of the point. -/
  | converged
  /-- The residual is exactly zero. -/
  | zeroResidual
  /-- The budget of residual evaluations is used up. -/
  | budgetExhausted
  /-- The tolerance asks for more than the arithmetic can resolve. -/
  | toleranceTooSmall
  /-- Five Jacobians in a row were evaluated without progress. -/
  | stalledJacobians
  /-- Ten iterations in a row went by without progress. -/
  | stalledIterations
  /-- The residual has another length than the point. -/
  | dimensionMismatch (actual : Nat)
  /-- The residual or the Jacobian is not finite. -/
  | nonFinite
deriving DecidableEq, Repr

namespace Termination

/-- Whether the search ended because it found what it looked for. -/
def isConverged : Termination → Bool
  | .converged | .zeroResidual => true
  | _ => false

/-- The reason in words. -/
def text : Termination → String
  | .converged => "relative step below tolerance"
  | .zeroResidual => "residual is zero"
  | .budgetExhausted => "maximum function evaluations reached"
  | .toleranceTooSmall => "tolerance too small"
  | .stalledJacobians => "not making progress (jacobian evaluations)"
  | .stalledIterations => "not making progress (iterations)"
  | .dimensionMismatch actual => s!"residual has dimension {actual}"
  | .nonFinite => "non-finite residual or jacobian"

end Termination

end ImplicitDiff
