import Mathlib.Tactic
import ImplicitDiff.Proofs.RootSearch.Requests
import ImplicitDiff.Proofs.Solver.Atomicity

/-! # Residuals of any length

Total equations may give as many residuals as they like, more at one point than at another. Whatever
they give, a solve and the derivative of a root end in a result: all Jacobians that a search asks
for are square, the linear solver is handed square matrices and right sides of the same length, and
a length that does not fit is reported.
-/

namespace ImplicitDiff.Solver

open Arith RootSearch

variable {F : Type} [Arith F] {equations : Equations F} {data : Data F} {n m : Nat}
  {f : List (Dual F) → List (Dual F) → List (Dual F)}

/-! ## The derivative of a root -/

theorem Equations.Computes.atUnknowns (computes : equations.Computes data n m f) {x : List F}
    (length : x.length = n) :
    (equations.atUnknowns data x).Computes m fun y => f (x.map Dual.constant) y := by
  intro y fits
  exact Equations.call_yields
    (computes (x.map Dual.constant) y ((List.length_map _).trans length) fits)

/-- A matrix of `n` rows and columns, with `k` right sides of length `n` as the columns of
another. -/
structure IsSystem (a right : Rows F) (n k : Nat) : Prop where
  square : a.IsSquare n
  length : right.length = n
  wide : ∀ row ∈ right, row.length = k

/-- What the derivative of a root hands to the linear solver, and when it reports a length. -/
structure DerivativeInShape (equations : Equations F) (data : Data F) (x y residuals : List F)
    (byUnknowns byParameters : Rows F) (result : Except (Failure F) (Rows F)) : Prop where
  unknowns : ∃ noted, Yields ((equations.atParameters data y).jacobian x) noted byUnknowns
  parameters : ∃ noted, Yields ((equations.atUnknowns data x).jacobian y) noted byParameters
  gives : Gives (rootDerivative equations x y data) result
  rows : byUnknowns.length = residuals.length ∧ byParameters.length = residuals.length
  system : residuals.length = x.length →
    IsSystem byUnknowns byParameters.opposite x.length y.length
  mismatch_iff (expected actual : Nat) : result = .error (.dimensionMismatch expected actual) ↔
    residuals.length ≠ x.length ∧ expected = x.length ∧ actual = residuals.length

theorem Derived.mismatch_iff {k : Nat} {residuals : List F} {rows : Rows F}
    {result : Except (Failure F) (Rows F)} (derived : Derived n k residuals rows result)
    (expected actual : Nat) : result = .error (.dimensionMismatch expected actual) ↔
      residuals.length ≠ n ∧ expected = n ∧ actual = residuals.length := by
  cases derived with
  | mismatch unfit => simp [unfit, eq_comm]
  | singular fits _ | block fits _ => simp [fits]

private theorem exists_derivativeInShape {x y : List F}
    (computes : equations.Computes data x.length y.length f) :
    ∃ byUnknowns byParameters result, DerivativeInShape equations data x y (residualAt f y x)
      byUnknowns byParameters result := by
  obtain ⟨rows, linearized⟩ := computes.linearized_eq
  obtain ⟨result, gives, derived⟩ := exists_derived linearized
  have first : (slopes (fun xs => f xs (y.map Dual.constant)) x).length =
      (residualAt f y x).length := length_slopes ..
  have second : (slopes (fun ys => f (x.map Dual.constant) ys) y).length =
      (residualAt f y x).length := length_slopes ..
  exact ⟨_, _, result, {
    unknowns := ⟨_, (computes.atParameters rfl).jacobian_yields rfl⟩
    parameters := ⟨_, (computes.atUnknowns rfl).jacobian_yields rfl⟩
    gives
    rows := ⟨first, second⟩
    system := fun fits => {
      square := ⟨first.trans fits, length_of_mem_slopes⟩
      length := (List.length_map _).trans (second.trans fits)
      wide := by
        rw [Rows.opposite, List.forall_mem_map]
        intro row member
        rw [List.length_map, length_of_mem_slopes member] }
    mismatch_iff := derived.mismatch_iff }⟩

/-! ## Traced solves -/

omit [Arith F] in
/-- The only faults of a traced solve are parameters without a tape or of another one. -/
theorem PlainAndNode.fault {parameters : List (Traced F)} {r : Recorder F}
    {plain : Except Fault (Except (Failure F) (List F)) × Journal F}
    {derivative : List F → SolveM F (Rows F)}
    {traced : Except Fault (Except (Failure F) (List (Traced F))) × Recorder F} {fault : Fault}
    (same : PlainAndNode n parameters r plain derivative traced) (ended : traced.1 = .error fault) :
    fault = .trackedParameters ∨
      ∃ p ∈ parameters, ∃ size, fault = .foreignParameter p.index size := by
  obtain ⟨cause | root, journal, found⟩ := same.total
  · rw [same.failed found] at ended
    cases ended
  cases tracked : parameters.any Traced.isTracked with
  | false =>
    rw [same.untracked found tracked] at ended
    cases ended
  | true =>
    cases active : r.tape with
    | none =>
      rw [same.inactive found tracked active] at ended
      cases ended
      exact .inl rfl
    | some t =>
      by_cases known : ∀ p ∈ parameters, t.Knows p.index
      · obtain ⟨_, -, last⟩ | ⟨_, _, -, -, -, last⟩ := same.recorded found tracked active known
        all_goals
          rw [last] at ended
          cases ended
      · push Not at known
        obtain ⟨_, last⟩ | ⟨p, member, -, _, last⟩ := same.foreign found tracked active known
        · rw [last] at ended
          cases ended
        · rw [last] at ended
          cases ended
          exact .inr ⟨p, member, _, rfl⟩

/-- A traced solve of total equations fails as the search for the root does, and otherwise its only
faults are those of the tape. -/
theorem solveTraced_of_findRoot [SoundComparisons F] {guess : List F} {traced : List (Traced F)}
    {settings : Settings F} {events : Journal F} {result : Except (Failure F) (Root F)}
    (computes : equations.Computes data guess.length traced.length f)
    (found : Yields (findRoot equations guess (traced.map Traced.value) data settings).run events
      result) (r : Recorder F) :
    (∀ cause, result = .error cause →
      ((solveTraced equations guess traced data settings).run.run.run r).1 = .ok (.error cause)) ∧
    ∀ fault, ((solveTraced equations guess traced data settings).run.run.run r).1 =
      .error fault → fault = .trackedParameters ∨
        ∃ p ∈ traced, ∃ size, fault = .foreignParameter p.index size := by
  have searched := run_record (findRoot equations guess (traced.map Traced.value) data settings) r
  rw [found r.journal] at searched
  cases result with
  | error cause =>
    have failed : (solveTraced equations guess traced data settings).run.run.run r = _ :=
      solve_bind_of_error searched
    rw [failed]
    refine ⟨fun other same => ?_, fun fault ended => (nomatch ended)⟩
    cases same
    rfl
  | ok root =>
    have onward : (solveTraced equations guess traced data settings).run.run.run r = _ :=
      solve_bind_of_ok searched
    have length : (traced.map Traced.value).length = traced.length := List.length_map _
    obtain ⟨some, unknowns, fits⟩ := shape_of_findRoot_ok (length ▸ computes) (found r.journal)
    have positive : guess.length ≠ 0 := fun none => some (List.length_eq_zero_iff.mp none)
    refine ⟨fun _ same => (nomatch same), fun fault ended => ?_⟩
    rw [onward] at ended
    exact (attach_plain_and_node computes positive unknowns fits).fault ended

/-! ## All of it -/

/-- Residuals with a root at `1.5`, and one more wherever an unknown is above one. -/
def growing (unknowns _parameters : List (Dual Float)) : List (Dual Float) :=
  unknowns.map (· - Dual.constant 1.5) ++ unknowns.filter fun x => 1 < x.primal

/-- Equations that have too many residuals at their root. -/
def growingEquations : Equations Float where
  residual _ unknowns parameters := .ok (growing unknowns parameters)

/-- There are two residuals at the second point instead of one, and that is what is reported. -/
example : ((findRoot growingEquations [0.5] [1] {} .usual).run.run.run #[]).1.toOption.map
    (fun | .error (.dimensionMismatch expected actual) => some (expected, actual) | _ => none) =
      some (some (1, 2)) := by
  decide +kernel

end ImplicitDiff.Solver
