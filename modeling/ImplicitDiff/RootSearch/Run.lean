import ImplicitDiff.RootSearch.Basic

/-! # Running a root search

The loop calls the equations and hands what they say to the functions on states. It ends because
each iteration evaluates the residual once and a search that has used up its budget stops.
-/

namespace ImplicitDiff.RootSearch

open Arith

variable {F : Type} [Arith F]

/-- The problem with the given functions. Each call leaves a note. -/
def Problem.ofFunctions (residual : List F → Except Fault (List F))
    (jacobian : List F → Except Fault (Rows F)) : Problem F where
  residual x := do
    note (.evaluated x)
    residual x
  jacobian x := do
    note (.linearized x)
    jacobian x

/-- Notes that a search stopped and gives what it ends with. -/
def finish (outcome : Outcome F) : SearchM F (Outcome F) := do
  note (.stopped outcome.iterations outcome.evaluations outcome.jacobians outcome.termination)
  return outcome

/-- Notes what came of a trial; `s` is the state after it. -/
def report (s : State F) (a : Assessment F) : SearchM F Unit :=
  note (.stepped s.norm a.ratio s.radius a.isAccepted s.failures)

/-- The iterations from a state on. -/
def run (settings : Settings F) (p : Problem F) (s : State F) : SearchM F (Outcome F) := do
  let t := s.trial
  let residual ← p.residual t.point
  if residual.length ≠ s.point.length then
    finish (s.evaluated.outcome (.dimensionMismatch residual.length))
  else
    let a := s.assess t residual
    let next := s.advance t a
    report next a
    match _goesOn : next.verdict settings t.size with
    | some reason => finish (next.outcome reason)
    | none =>
      if next.failures = 2 then
        let jacobian ← p.jacobian next.point
        if jacobian.allFinite then
          let columns ← columnNorms jacobian next.point.length
          run settings p (next.linearized.refresh jacobian columns)
        else finish (next.linearized.outcome .nonFinite)
      else run settings p (next.correct t a)
termination_by settings.budget - s.evaluations
decreasing_by
  all_goals
    have left : (s.advance t a).evaluations < settings.budget :=
      State.evaluations_lt_of_verdict _goesOn
    simp only [State.evaluations_advance, State.evaluations_linearized,
      State.evaluations_refresh, State.evaluations_correct] at left ⊢
    omega

/-- The outcome of a search that stops at its first point. -/
def Outcome.atStart (point residual : List F) (norm : F) (jacobians : Nat)
    (termination : Termination) : Outcome F :=
  { point, residual, norm, iterations := 0, evaluations := 1, jacobians, termination }

/-- Searches for a root from a first point. -/
def search (settings : Settings F) (p : Problem F) (point : List F) : SearchM F (Outcome F) := do
  let residual ← p.residual point
  let norm := ImplicitDiff.norm residual
  if residual.length ≠ point.length then
    finish (.atStart point residual nan 0 (.dimensionMismatch residual.length))
  else if !isFinite norm then finish (.atStart point residual norm 0 .nonFinite)
  else if norm == 0 then finish (.atStart point residual norm 0 .zeroResidual)
  else
    let jacobian ← p.jacobian point
    if jacobian.allFinite then
      let columns ← columnNorms jacobian point.length
      run settings p (.start settings point residual jacobian columns)
    else finish (.atStart point residual norm 1 .nonFinite)

end ImplicitDiff.RootSearch
