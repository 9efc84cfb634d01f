/-! # Faults

A fault is a broken precondition of an operation: a place that does not exist, a block of the wrong
shape, a recording without a tape. It ends the operation that found it. That an equation has no
acceptable root is no fault but an outcome of the search.
-/

namespace ImplicitDiff

/-- What broke a precondition. -/
inductive Fault where
  /-- A place was read or written that does not exist. -/
  | indexOutOfBounds
  /-- A tracked operation was asked for while no tape is active. -/
  | noActiveTape
  /-- A node without outputs has no statement to stand for it. -/
  | nodeWithoutOutputs
  /-- A row of a node's derivative block has not one entry for each parameter. -/
  | raggedSensitivity (row length expected : Nat)
  /-- A parameter of a node names none of the `size` variables of the tape that it is pushed on. -/
  | foreignParameter (parameter : UInt32) (size : UInt32)
  /-- A weighted sum of outputs has not one weight for each output. -/
  | weightCount
  /-- A root depends on tracked parameters while no tape is active. -/
  | trackedParameters
deriving DecidableEq, Repr

/-- The text of a broken precondition; a place that does not exist has none. -/
def Fault.message? : Fault → Option String
  | .indexOutOfBounds => none
  | .noActiveTape => some "No active tape. Use rootgrad::grad() or a TapeGuard."
  | .nodeWithoutOutputs => some "implicit node must have at least one output"
  | .raggedSensitivity row length expected =>
    some s!"sensitivity row {row} has length {length}, expected {expected} (one per parameter)"
  | .foreignParameter parameter size =>
    some s!"implicit node parameter index {parameter} is not on this tape ({size} variables)"
  | .weightCount => some "output length must match weight vector length"
  | .trackedParameters =>
    some "tracked parameters passed to algebra_solver without an active tape"

/-- The entry at a place that has to exist. -/
def fetch {M : Type → Type} [Monad M] [MonadExceptOf Fault M] {α : Type} (found : Option α) : M α :=
  match found with
  | some a => pure a
  | none => throw .indexOutOfBounds

end ImplicitDiff
