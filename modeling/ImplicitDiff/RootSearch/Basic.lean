import ImplicitDiff.Journal
import ImplicitDiff.RootSearch.Dogleg

/-! # The state of a root search

A search for a root of `n` equations in `n` unknowns keeps a point, its residual, a matrix that
stands for the Jacobian there, a scale for each unknown and a trust radius. One iteration tries the
dogleg step, compares the reduction of the residual with the one that the linear model promised,
adjusts the radius by the ratio of the two and keeps the trial point if the ratio is not too small.
The matrix is then corrected along the step, or evaluated afresh after two failures in a row.

Here are the parts of an iteration that call nothing, each as a function from state to state. A scale
is the length of a column of the Jacobian and never shrinks.
-/

namespace ImplicitDiff.RootSearch

open Arith

variable {F : Type}

/-- Equations as many as unknowns. The matrix need not be the true Jacobian. -/
structure Problem (F : Type) where
  /-- The residual at a point. -/
  residual : List F → SearchM F (List F)
  /-- The Jacobian at a point, one row for each equation. -/
  jacobian : List F → SearchM F (Rows F)

/-- When to stop, and how far to trust the first step. -/
structure Settings (F : Type) where
  /-- The radius, relative to the scaled length of the point, at which the search has converged. -/
  tolerance : F
  /-- How many evaluations of the residual are allowed. -/
  budget : Nat
  /-- The first radius, relative to the scaled length of the first point. -/
  factor : F
deriving Repr

/-- What a search ends with. -/
structure Outcome (F : Type) where
  /-- The last point that was kept. -/
  point : List F
  /-- The residual at the point. -/
  residual : List F
  /-- The length of the residual; no number if the residual has the wrong number of entries. -/
  norm : F
  /-- The number of steps that were kept. -/
  iterations : Nat
  /-- The number of evaluations of the residual. -/
  evaluations : Nat
  /-- The number of evaluations of the Jacobian. -/
  jacobians : Nat
  /-- Why the search stopped. -/
  termination : Termination
deriving Repr

/-- Where a search stands between two iterations. -/
structure State (F : Type) extends LinearModel F where
  /-- The point. -/
  point : List F
  /-- The length of the residual. -/
  norm : F
  /-- The scaled length of the point, as of when it was kept. -/
  pointNorm : F
  /-- The trust radius. -/
  radius : F
  /-- Whether no step was tried yet. -/
  untried : Bool := true
  /-- Whether the matrix was evaluated at the point and not corrected since. -/
  fresh : Bool := true
  /-- The number of successes in a row. -/
  successes : Nat := 0
  /-- The number of failures in a row. -/
  failures : Nat := 0
  /-- The number of iterations in a row without progress. -/
  slow : Nat := 0
  /-- The number of iterations with a fresh matrix since the last good progress. -/
  slowFresh : Nat := 0
  /-- The number of steps that were kept. -/
  iterations : Nat := 0
  /-- The number of evaluations of the residual. -/
  evaluations : Nat := 1
  /-- The number of evaluations of the Jacobian. -/
  jacobians : Nat := 1
deriving Repr

/-- A step and where it leads. -/
structure Trial (F : Type) where
  /-- The step. -/
  step : List F
  /-- Its scaled length. -/
  size : F
  /-- The point that it leads to. -/
  point : List F
deriving Repr

/-- How the residual at a trial point compares with what the linear model promised. -/
structure Assessment (F : Type) where
  /-- The residual at the trial point. -/
  residual : List F
  /-- Its length. -/
  norm : F
  /-- By what part of its square the length went down; minus one if it did not. -/
  reduction : F
  /-- The reduction as a multiple of the promised one, zero if none was promised. -/
  ratio : F
  /-- What the residual differs by from the model. -/
  mismatch : List F
deriving Repr

variable [Arith F]

/-- The lengths of the first `n` columns. A row that is too short is a fault. -/
def columnNorms (a : Rows F) (n : Nat) : Except Fault (List F) :=
  (List.range n).mapM fun j => return norm (← a.mapM fun row => fetch row[j]?)

/-- Adds to each row its weight times the row `w`, as far as there are weights. -/
def addOuter (w : List F) : Rows F → List F → Rows F
  | row :: rows, weight :: weights => addMultiple weight row w :: addOuter w rows weights
  | rows, _ => rows

/-- The part of its square by which a length goes down from `before` to `after`. -/
def relativeReduction (before after : F) : F := 1 - powInt (after / before) 2

/-- Whether the residual went down by too small a part of what was promised. -/
def Assessment.isFailure (a : Assessment F) : Bool := decide (a.ratio < 0.1)

/-- Whether the trial point is kept, which it may be even after a failure. -/
def Assessment.isAccepted (a : Assessment F) : Bool := decide (0.0001 ≤ a.ratio)

namespace State

/-- The state at the first point, from the lengths of the columns of its Jacobian. A column of zeros
leaves its unknown as it is, and a point of scaled length zero the factor as the radius. -/
def start (settings : Settings F) (point residual : List F) (jacobian : Rows F) (columns : List F) :
    State F :=
  let scale := columns.map fun d => if d == 0 then 1 else d
  let pointNorm := scaledNorm scale point
  let radius := settings.factor * pointNorm
  { residual, jacobian, scale, point, pointNorm
    norm := ImplicitDiff.norm residual
    radius := if radius == 0 then settings.factor else radius }

/-- The step to try next. -/
def trial (s : State F) : Trial F :=
  let step := s.dogleg s.radius
  { step, size := scaledNorm s.scale step, point := s.point.zipWith (fun x p => x + p) step }

/-- The comparison of the residual at the trial point with the linear model. -/
def assess (s : State F) (t : Trial F) (residual : List F) : Assessment F :=
  let norm := ImplicitDiff.norm residual
  let reduction := if norm < s.norm then relativeReduction s.norm norm else -1
  let model := (s.jacobian.apply t.step).zipWith (fun a r => a + r) s.residual
  let promisedNorm := ImplicitDiff.norm model
  let promised := if promisedNorm < s.norm then relativeReduction s.norm promisedNorm else 0
  { residual, norm, reduction
    ratio := if 0 < promised then reduction / promised else 0
    mismatch := residual.zipWith (fun a m => a - m) model }

/-- The radius after a trial. The first step bounds the radius from above. A failure halves it. A
success sets it to twice the step if the model was accurate, and otherwise lets it grow to that if
the step was a good one or not the only success in a row. -/
def nextRadius (s : State F) (t : Trial F) (a : Assessment F) : F :=
  let radius := if s.untried then min s.radius t.size else s.radius
  if a.isFailure then 0.5 * radius
  else if Arith.abs (a.ratio - 1) ≤ 0.1 then t.size / 0.5
  else if 0.5 ≤ a.ratio ∨ 0 < s.successes then max radius (t.size / 0.5)
  else radius

/-- The state with the radius and the counts of successes and failures after a trial. -/
def adjust (s : State F) (t : Trial F) (a : Assessment F) : State F :=
  { s with
    untried := false
    radius := s.nextRadius t a
    successes := if a.isFailure then 0 else s.successes + 1
    failures := if a.isFailure then s.failures + 1 else 0 }

/-- The point and what belongs to it after a trial: those of the trial if it is kept. -/
def keep (s : State F) (t : Trial F) (a : Assessment F) : State F :=
  if a.isAccepted then
    { s with
      point := t.point, residual := a.residual, norm := a.norm
      pointNorm := scaledNorm s.scale t.point
      iterations := s.iterations + 1 }
  else s

@[simp] theorem evaluations_keep (s : State F) (t : Trial F) (a : Assessment F) :
    (s.keep t a).evaluations = s.evaluations := by
  unfold keep
  split <;> rfl

/-- The counts of iterations without progress after a trial. -/
def countSlow (s : State F) (a : Assessment F) : State F :=
  { s with
    slow := if 0.001 ≤ a.reduction then 0 else s.slow + 1
    slowFresh :=
      if 0.1 ≤ a.reduction then 0 else if s.fresh then s.slowFresh + 1 else s.slowFresh }

/-- The state after one more evaluation of the residual. -/
def evaluated (s : State F) : State F := { s with evaluations := s.evaluations + 1 }

/-- The state after one more evaluation of the Jacobian. -/
def linearized (s : State F) : State F := { s with jacobians := s.jacobians + 1 }

/-- The state after a trial, up to its matrix and scales. -/
def advance (s : State F) (t : Trial F) (a : Assessment F) : State F :=
  (((s.adjust t a).keep t a).countSlow a).evaluated

/-- Why to stop after a trial with a step of the given size, if there is a reason. The first one in
this order counts. -/
def verdict (settings : Settings F) (s : State F) (size : F) : Option Termination :=
  if s.norm == 0 then some .zeroResidual
  else if s.radius ≤ settings.tolerance * s.pointNorm then some .converged
  else if settings.budget ≤ s.evaluations then some .budgetExhausted
  else if 0.1 * max (0.1 * s.radius) size ≤ epsilon * s.pointNorm then some .toleranceTooSmall
  else if s.slowFresh = 5 then some .stalledJacobians
  else if s.slow = 10 then some .stalledIterations
  else none

/-- A search that goes on has evaluations left. -/
theorem evaluations_lt_of_verdict {settings : Settings F} {s : State F} {size : F}
    (goesOn : s.verdict settings size = none) : s.evaluations < settings.budget := by
  unfold verdict at goesOn
  split at goesOn
  · contradiction
  split at goesOn
  · contradiction
  split at goesOn
  · contradiction
  omega

/-- The state with a matrix evaluated afresh, given the lengths of its columns. No scale shrinks. -/
def refresh (s : State F) (jacobian : Rows F) (columns : List F) : State F :=
  { s with
    jacobian, fresh := true
    scale := s.scale.zipWith (fun d c => max d c) columns }

/-- The state with the matrix corrected along the step, by as little as makes it explain the
residual at the trial point; `s` is the state after that trial. Without a step or with a residual
that is not finite there is nothing to learn. -/
def correct (s : State F) (t : Trial F) (a : Assessment F) : State F :=
  if isFinite a.norm ∧ 0 < t.size then
    let direction := s.scale.zipWith (fun d p => d * (d * p / t.size) / t.size) t.step
    { s with jacobian := addOuter direction s.jacobian a.mismatch, fresh := false }
  else { s with fresh := false }

omit [Arith F] in
@[simp] theorem evaluations_linearized (s : State F) :
    s.linearized.evaluations = s.evaluations := rfl

@[simp] theorem evaluations_refresh (s : State F) (jacobian : Rows F) (columns : List F) :
    (s.refresh jacobian columns).evaluations = s.evaluations := rfl

@[simp] theorem evaluations_correct (s : State F) (t : Trial F) (a : Assessment F) :
    (s.correct t a).evaluations = s.evaluations := by
  unfold correct
  split <;> rfl

/-- A trial takes one evaluation of the residual. -/
@[simp] theorem evaluations_advance (s : State F) (t : Trial F) (a : Assessment F) :
    (s.advance t a).evaluations = s.evaluations + 1 := by
  simp [advance, evaluated, countSlow, adjust]

/-- What the search ends with if it stops in this state. -/
def outcome (s : State F) (termination : Termination) : Outcome F :=
  { point := s.point, residual := s.residual, norm := s.norm, iterations := s.iterations
    evaluations := s.evaluations, jacobians := s.jacobians, termination }

end State

end ImplicitDiff.RootSearch
