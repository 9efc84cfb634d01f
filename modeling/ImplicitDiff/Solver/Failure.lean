import ImplicitDiff.Text

/-! # Why a solve fails

A solve either gives a root that passed every check or says which check failed first. An argument
that breaks a precondition is told apart from equations that could not be solved.
-/

namespace ImplicitDiff.Solver

variable {F : Type}

/-- A precondition on an argument that does not hold. -/
inductive InvalidInput (F : Type) where
  /-- A vector has no entries. -/
  | emptyVector (name : String)
  /-- The first entry of a vector that is not finite. -/
  | nonFinite (name : String) (index : Nat) (value : F)
  /-- A value is not greater than zero. -/
  | nonPositive (name : String) (value : F)
deriving DecidableEq, Repr

/-- Why a solve failed. -/
inductive Failure (F : Type) where
  /-- A precondition on the arguments does not hold. -/
  | invalidInput (cause : InvalidInput F)
  /-- There are not as many equations as unknowns. -/
  | dimensionMismatch (expected actual : Nat)
  /-- The search used up its budget of evaluations. -/
  | nonConvergence (budget evaluations : Nat)
  /-- The residual at the final point is too large for a root. -/
  | unacceptableRoot (norm tolerance : F)
  /-- The Jacobian at the root has no inverse, so the root has no derivative. -/
  | singularJacobian
deriving DecidableEq, Repr

/-- Whether the arguments are to blame. -/
def Failure.isInvalidInput : Failure F → Bool
  | .invalidInput _ => true
  | _ => false

variable [Decimal.Decimals F]

/-- The precondition in words. -/
def InvalidInput.message : InvalidInput F → String
  | .emptyVector name => s!"{name} has size 0, but must have a non-zero size"
  | .nonFinite name index value =>
    name ++ s!"[{index}] is " ++ messageText value ++ ", but must be finite"
  | .nonPositive name value => name ++ " is " ++ messageText value ++ ", but must be greater than 0"

/-- The failure in words. -/
def Failure.message : Failure F → String
  | .invalidInput cause => "invalid input: " ++ cause.message
  | .dimensionMismatch expected actual =>
    s!"the output of the algebraic system has dimension {actual}, but should have the same " ++
      s!"dimension as the vector of unknowns, which is {expected}"
  | .nonConvergence budget evaluations =>
    s!"max number of iterations: {budget} exceeded ({evaluations} evaluations)"
  | .unacceptableRoot norm tolerance =>
    "the norm of the algebraic function is " ++ messageText norm ++
      ", but should be lower than the function tolerance " ++ messageText tolerance ++
      "; consider decreasing the relative tolerance and increasing max_num_steps"
  | .singularJacobian =>
    "the Jacobian of the algebraic system with respect to the unknowns is singular at the solution"

end ImplicitDiff.Solver
