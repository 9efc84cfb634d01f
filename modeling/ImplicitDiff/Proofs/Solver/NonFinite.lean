import Mathlib.Tactic
import ImplicitDiff.Proofs.Dense.NonFinite
import ImplicitDiff.Proofs.Solver.Sensitivity

/-! # Jacobians that are not finite

A matrix with an infinite entry is refused by everything that needs its factors. A matrix with an
entry that is no number need not be: its factors may be returned, but then all that is computed from
them is no number either, down to the derivative of a root.
-/

namespace ImplicitDiff.Solver

open Arith

variable {F : Type} [Arith F]

/-- What needs the factors of the matrix fails, as it does for a singular one. -/
structure Refuses (a : Rows F) : Prop where
  factor : a.factor? = none
  solve (b : List F) : a.solve? b = none
  solveRows (b : Rows F) : a.solveRows? b = .ok none
  derivative {equations : Equations F} {root parameters residuals : List F} {data : Data F}
    {rows : Rows F} : equations.linearized data root parameters = .ok (residuals, rows) →
    residuals.length = root.length → rows.columnsBefore root.length = a →
    Gives (rootDerivative equations root parameters data) (.error .singularJacobian)

/-- The matrix has factors, but their last pivot is no number, and neither is any entry of what is
computed from them. -/
structure Spoils (a : Rows F) : Prop where
  factor : ∃ before last, a.factor? = some (before ++ [last]) ∧ isNaN last.pivot = true
  solve (b : List F) : ∃ x, a.solve? b = some x ∧ x.length = a.length ∧ ∀ c ∈ x, isNaN c = true
  solveRows (b : Rows F) : a.solveRows? b ≠ .ok none ∧
    ∀ x, a.solveRows? b = .ok (some x) → ∀ row ∈ x, ∀ c ∈ row, isNaN c = true
  derivative {equations : Equations F} {root parameters residuals : List F} {data : Data F}
    {rows : Rows F} : equations.linearized data root parameters = .ok (residuals, rows) →
    residuals.length = root.length → rows.columnsBefore root.length = a →
    ∃ block, Gives (rootDerivative equations root parameters data) (.ok block) ∧
      block.length = root.length ∧
      ∀ row ∈ block, row.length = parameters.length ∧ ∀ c ∈ row, isNaN c = true

theorem refuses_of_factor?_eq_none {a : Rows F} (factored : a.factor? = none) : Refuses a := by
  constructor
  case factor => exact factored
  case solve =>
    intro b
    rw [Rows.solve?, factored]
    rfl
  case solveRows =>
    intro b
    rw [Rows.solveRows?, factored]
  case derivative =>
    rintro equations root parameters residuals data rows linearized fits rfl
    obtain ⟨result, gives, derived⟩ := exists_derived linearized
    cases derived with
    | mismatch differs => exact absurd fits differs
    | singular => exact gives
    | block _ found => cases factored.symm.trans found

private theorem spoils_of_factor? [SpecialValues F] {a : Rows F} {n : Nat} (square : a.IsSquare n)
    {c : F} (member : c ∈ a.flatten) (missing : isNaN c = true) {factors : Factors F}
    (factored : a.factor? = some factors) : Spoils a := by
  obtain ⟨⟨before, last, rfl, pivot⟩, spoiled⟩ := square.spoils member missing factored
  have length := Rows.factor?_length factored
  have solutions {b : Rows F} {width : Nat} {row : List F}
      (listed : row ∈ Factors.solutions (before ++ [last]) b width) :
      ∀ c ∈ row, isNaN c = true := by
    intro c entry
    obtain ⟨v, solved⟩ := Factors.exists_mem_solve listed entry
    exact spoiled v c solved
  constructor
  case factor => exact ⟨before, last, factored, pivot⟩
  case solve =>
    intro b
    refine ⟨Factors.solve (before ++ [last]) b, ?_, (Factors.length_solve ..).trans length,
      spoiled b⟩
    rw [Rows.solve?, factored]
    rfl
  case solveRows =>
    intro b
    rw [Rows.solveRows?, factored]
    dsimp only
    cases found : Factors.solveRows (before ++ [last]) b with
    | error fault =>
      refine ⟨fun none => ?_, fun _ some => ?_⟩
      · cases none
      · cases some
    | ok x =>
      refine ⟨fun none => ?_, ?_⟩
      · cases none
      rintro _ ⟨⟩ row listed
      rw [Factors.eq_solutions found] at listed
      exact solutions listed
  case derivative =>
    rintro equations root parameters residuals data rows linearized fits rfl
    obtain ⟨result, gives, derived⟩ := exists_derived linearized
    have shape {block : Rows F} (same : result = .ok block) :=
      Derived.shape (same ▸ derived) (jacobian_shape linearized).1
    cases derived with
    | mismatch differs => exact absurd fits differs
    | singular _ none => cases factored.symm.trans none
    | block _ found =>
      cases factored.symm.trans found
      obtain ⟨length, wide⟩ := shape rfl
      exact ⟨_, gives, length, fun row listed => ⟨wide row listed, solutions listed⟩⟩

/-- **A matrix that is not finite is refused or spoils everything.** With an infinite entry it is
refused. With an entry that is no number it is either refused, for another reason, or nothing but
what is no number comes of it. -/
theorem refuses_or_spoils [SpecialValues F] {a : Rows F} {n : Nat} (square : a.IsSquare n) :
    ((∃ c ∈ a.flatten, IsInfinite c) → Refuses a) ∧
    ((∃ c ∈ a.flatten, isNaN c = true) → Refuses a ∨ Spoils a) := by
  refine ⟨fun ⟨c, member, infinite⟩ =>
    refuses_of_factor?_eq_none (Rows.factor?_of_infinite member infinite),
    fun ⟨c, member, missing⟩ => ?_⟩
  cases factored : a.factor? with
  | none => exact .inl (refuses_of_factor?_eq_none factored)
  | some factors => exact .inr (spoils_of_factor? square member missing factored)

/-- One matrix is refused and the other one spoils everything. -/
theorem refuses_or_spoils_of_corner :
    Rows.IsSquare ([[1, 0], [0, nan]] : Rows Float) 2 ∧
    Refuses ([[1, 0], [0, infinity]] : Rows Float) ∧ Spoils ([[1, 0], [0, nan]] : Rows Float) := by
  have square (c : Float) : Rows.IsSquare [[1, 0], [0, c]] 2 := ⟨rfl, by simp⟩
  have infinite : IsInfinite (infinity : Float) := ⟨by decide +kernel, by decide +kernel⟩
  have missing : isNaN (nan : Float) = true := by decide +kernel
  refine ⟨square _, (refuses_or_spoils (square _)).1 ⟨infinity, by simp, infinite⟩, ?_⟩
  refine ((refuses_or_spoils (square _)).2 ⟨nan, by simp, missing⟩).resolve_left fun refuses => ?_
  have accepted : (Rows.factor? ([[1, 0], [0, nan]] : Rows Float)).isSome = true := by
    decide +kernel
  rw [refuses.factor] at accepted
  cases accepted

/-- A matrix with an entry that is no number has factors, and solutions of what is no number. -/
theorem solve?_of_nan_corner : isNaN (nan : Float) = true ∧
    (Rows.factor? ([[1, 0], [0, nan]] : Rows Float)).isSome = true ∧
    ((Rows.solve? ([[1, 0], [0, nan]] : Rows Float) [1, 1]).map (List.map isNaN)) =
      some [true, true] := by
  decide +kernel

end ImplicitDiff.Solver
