import Mathlib.Tactic
import ImplicitDiff.Proofs.RootSearch.FiniteSteps
import ImplicitDiff.Proofs.Solver.Acceptance

/-! # Accepted roots that are not finite

A solve checks its arguments, the residuals and the Jacobians, but not the points that the search
keeps. A residual may be short at a point that is infinite. So an accepted root consists of numbers,
and it is finite exactly if no step on the way to it overflowed.
-/

namespace ImplicitDiff.Solver

open Arith RootSearch

variable {F : Type} [Arith F] {equations : Equations F} {data : Data F} {guess parameters : List F}
  {settings : Settings F}

/-- A guess that breaks no precondition is finite. -/
theorem allFinite_of_violations {reals : List F}
    (admitted : violations guess parameters reals settings = []) : AllFinite guess := by
  have none : offenders "initial guess" guess = [] := by
    simp only [violations, List.append_eq_nil_iff] at admitted
    exact admitted.1.1.1.1.1.2
  intro x member
  obtain ⟨i, inside, rfl⟩ := List.getElem_of_mem member
  have listed : (guess[i], i) ∈ guess.zipIdx := by
    rw [List.mk_mem_zipIdx_iff_getElem?, List.getElem?_eq_getElem inside]
  have passed := List.filterMap_eq_nil_iff.mp none _ listed
  simpa using passed

variable [SoundComparisons F] [FiniteSums F]

/-- **Accepted roots are numbers, finite unless a step overflowed.** A solve of total equations, for
the root or for its point alone, accepts only points that follow from the guess by finite steps. No
entry of an accepted root is lost to what is no number, and all of them are finite exactly if no
step led from a finite entry to an infinite one. -/
theorem findRoot_point {f : List (Dual F) → List (Dual F) → List (Dual F)}
    (computes : equations.Computes data guess.length parameters.length f)
    (settings : Settings F) : ∃ searched o events result,
      Yields (search settings.search (equations.atParameters data parameters).problem guess)
        searched o ∧
      Yields (findRoot equations guess parameters data settings).run events result ∧
      Yields (solve equations guess parameters data settings).run events
        (result.map Root.point) ∧
      ∀ root, result = .ok root →
        (guess :: (Journal.account searched).kept).getLast? = some root.point ∧
        (guess :: (Journal.account searched).kept).IsChain StepsTo ∧
        (∀ x ∈ root.point, isNaN x = false) ∧
        (AllFinite root.point ↔
          (guess :: (Journal.account searched).kept).IsChain fun x y => ¬Overflows x y) := by
  obtain ⟨searched, o, events, ran, report, solved, -⟩ := exists_judged computes settings
  have table := classified parameters data.reals report
  have restricted := computes.atParameters (y := parameters) rfl
  obtain ⟨noted, o', again, course⟩ := exists_course restricted.isSquare settings.search
  obtain rfl := ran.unique again
  obtain rfl := ran.unique_events again
  refine ⟨searched, o, events, _, ran, solved, solve_yields solved, fun root accepted => ?_⟩
  obtain ⟨admitted, -, -, -, rfl⟩ := (table.ok_iff root).mp accepted
  have finite := allFinite_of_violations admitted
  have moves := course.stepsTo restricted.isSquare
  obtain ⟨numbers, bounded⟩ := allFinite_last_iff moves report.last
  refine ⟨report.last, moves, ?_, bounded.trans (and_iff_right finite)⟩
  exact numbers fun a member => FiniteSums.isNaN_of_isFinite (finite a member)

/-- A quotient that is small only far away. -/
def remote (unknowns _parameters : List (Dual Float)) : List (Dual Float) :=
  unknowns.map fun x => Dual.constant 1e308 / x

/-- Equations with no root but at infinity. -/
def remoteEquations : Equations Float where
  residual _ unknowns parameters := .ok (remote unknowns parameters)

/-- From the guess `1.5e308` the step to the root of the linear model overflows. -/
theorem findRoot_point_remote :
    remoteEquations.Computes {} 1 1 remote ∧ ∃ searched o events result,
      Yields (search (Settings.search .usual) (remoteEquations.atParameters {} [1]).problem
        ([1.5e308] : List Float)) searched o ∧
      Yields (findRoot remoteEquations [1.5e308] [1] {} .usual).run events result ∧
      Yields (solve remoteEquations [1.5e308] [1] {} .usual).run events (result.map Root.point) ∧
      ∀ root, result = .ok root →
        ([1.5e308] :: (Journal.account searched).kept).getLast? = some root.point ∧
        ([1.5e308] :: (Journal.account searched).kept).IsChain StepsTo ∧
        (∀ x ∈ root.point, isNaN x = false) ∧
        (AllFinite root.point ↔
          ([1.5e308] :: (Journal.account searched).kept).IsChain fun x y => ¬Overflows x y) := by
  have computes : remoteEquations.Computes {} [(1.5e308 : Float)].length [(1 : Float)].length
      remote := fun _ _ _ _ => rfl
  exact ⟨computes, findRoot_point computes .usual⟩

/-- The residual at the infinite point is zero, so the point is accepted as a root. -/
theorem solve_remote_infinite :
    ((solve remoteEquations [1.5e308] [1] {} .usual).run.run.run #[]).1.toOption.map
      (fun result => result.toOption.map (List.map isFinite)) = some (some [false]) := by
  decide +kernel

end ImplicitDiff.Solver
