import Mathlib.Tactic
import ImplicitDiff.Proofs.Dense.Triangular
import ImplicitDiff.Proofs.Solver.Sensitivity

/-! # The linearized equations

To first order, equations `f (x, y) = 0` say that `J dx + K dy = 0`, where `J` and `K` are the
columns of their Jacobian that belong to the unknowns and to the parameters. The derivative of a
root is the only matrix that takes `dy` to a solution `dx`.
-/

namespace ImplicitDiff

open Arith

variable {F : Type} [ExactOrderedField F]

omit [ExactOrderedField F] in
private theorem Rows.isSquare_columnsBefore {rows : Rows F} {n k : Nat} (length : rows.length = n)
    (wide : ∀ row ∈ rows, row.length = n + k) : (rows.columnsBefore n).IsSquare n := by
  refine ⟨(List.length_map _).trans length, fun {row} member => ?_⟩
  obtain ⟨whole, listed, rfl⟩ := List.mem_map.mp member
  rw [List.length_take, wide whole listed, Nat.min_eq_left (Nat.le_add_right n k)]

private theorem Rows.matrix_opposite (a : Rows F) (m n : Nat) :
    a.opposite.matrix m n = -a.matrix m n := by
  ext i j
  have row : a.opposite.getD i [] = (a.getD i []).map fun d => -d := List.getD_map (d := []) ..
  have entry : ((a.getD i []).map fun d => -d).getD j (-0) = -(a.getD i []).getD j 0 :=
    List.getD_map ..
  rw [neg_zero] at entry
  rw [matrix, Matrix.of_apply, row, entry]
  rfl

namespace Solver

/-- What the derivative of a root comes to, given the residuals and the Jacobian of the equations
with respect to `n` unknowns and `k` parameters. -/
structure SolvesLinearized (n k : Nat) (residuals : List F) (rows : Rows F)
    (result : Except (Failure F) (Rows F)) : Prop where
  /-- The Jacobian has a row for each residual and a column for each unknown and parameter. -/
  shape : rows.length = residuals.length ∧ ∀ row ∈ rows, row.length = n + k
  /-- It fails for the number of residuals exactly if this is wrong. -/
  mismatch_iff (expected actual : Nat) : result = .error (.dimensionMismatch expected actual) ↔
    residuals.length ≠ n ∧ expected = n ∧ actual = residuals.length
  /-- It fails for a singular Jacobian exactly if there are no factors. -/
  singular_iff : result = .error .singularJacobian ↔
    residuals.length = n ∧ (rows.columnsBefore n).factor? = none
  /-- If the Jacobian by the unknowns is singular, there are none. -/
  degenerate : residuals.length = n → ((rows.columnsBefore n).matrix n n).det = 0 →
    result = .error .singularJacobian
  /-- Otherwise it succeeds. -/
  succeeds_iff : (∃ block, result = .ok block) ↔
    residuals.length = n ∧ (rows.columnsBefore n).factor? ≠ none
  /-- A block has a row for each unknown and a column for each parameter. -/
  shape_block {block : Rows F} : result = .ok block →
    block.length = n ∧ ∀ row ∈ block, row.length = k
  /-- It is the only solution of the linearized equations. -/
  solution_iff {block : Rows F} : result = .ok block → ∀ x : Matrix (Fin n) (Fin k) F,
    (rows.columnsBefore n).matrix n n * x + (rows.columnsFrom n).matrix n k = 0 ↔
      x = block.matrix n k

private theorem Derived.solvesLinearized {n k : Nat} {residuals : List F} {rows : Rows F}
    {result : Except (Failure F) (Rows F)} (derived : Derived n k residuals rows result)
    (nonneg : 0 ≤ (epsilon : F)) (length : rows.length = residuals.length)
    (wide : ∀ row ∈ rows, row.length = n + k) : SolvesLinearized n k residuals rows result := by
  have square (fits : residuals.length = n) : (rows.columnsBefore n).IsSquare n :=
    Rows.isSquare_columnsBefore (length.trans fits) wide
  have degenerate (fits : residuals.length = n) :=
    (square fits).factor?_eq_none nonneg
  have shape {block : Rows F} (same : result = .ok block) :=
    Derived.shape (same ▸ derived) length
  cases derived with
  | mismatch differs =>
    constructor
    case shape => exact ⟨length, wide⟩
    case mismatch_iff =>
      intro expected actual
      rw [Except.error.injEq, Failure.dimensionMismatch.injEq, and_iff_right differs, eq_comm,
        eq_comm (a := actual)]
    case singular_iff => exact iff_of_false nofun fun ⟨fits, _⟩ => differs fits
    case degenerate => exact fun fits => absurd fits differs
    case succeeds_iff => exact iff_of_false nofun fun ⟨fits, _⟩ => differs fits
    all_goals exact nofun
  | singular fits factored =>
    constructor
    case shape => exact ⟨length, wide⟩
    case mismatch_iff => exact fun _ _ => iff_of_false nofun fun ⟨differs, _⟩ => differs fits
    case singular_iff => exact iff_of_true rfl ⟨fits, factored⟩
    case degenerate => exact fun _ _ => rfl
    case succeeds_iff => exact iff_of_false nofun fun ⟨_, found⟩ => found factored
    all_goals exact nofun
  | @block factors fits factored =>
    have some : (rows.columnsBefore n).factor? ≠ none := by
      rw [factored]
      exact Option.some_ne_none factors
    constructor
    case shape => exact ⟨length, wide⟩
    case mismatch_iff => exact fun _ _ => iff_of_false nofun fun ⟨differs, _⟩ => differs fits
    case singular_iff => exact iff_of_false nofun fun ⟨_, missing⟩ => some missing
    case degenerate => exact fun _ singular => absurd (degenerate fits singular) some
    case succeeds_iff => exact iff_of_true ⟨_, rfl⟩ ⟨fits, some⟩
    case shape_block => exact shape
    case solution_iff =>
      rintro _ ⟨⟩ x
      rw [add_eq_zero_iff_eq_neg, ← Rows.matrix_opposite]
      exact (square fits).mul_eq_iff nonneg factored _ x

/-- **The derivative of a root solves the linearized equations**, and nothing else does. It is
missing only if the number of residuals is wrong or the Jacobian by the unknowns has no factors. If
a call of the equations ends in a fault, so does the derivative. -/
theorem rootDerivative_solvesLinearized (nonneg : 0 ≤ (epsilon : F)) (equations : Equations F)
    (root parameters : List F) (data : Data F) :
    (∃ fault, equations.linearized data root parameters = .error fault ∧
      EndsIn (rootDerivative equations root parameters data).run (.error fault)) ∨
    ∃ residuals rows, equations.linearized data root parameters = .ok (residuals, rows) ∧
      ∃ result, Gives (rootDerivative equations root parameters data) result ∧
        SolvesLinearized root.length parameters.length residuals rows result := by
  obtain failed | ⟨residuals, rows, linearized, result, gives, derived⟩ :=
    rootDerivative_endsIn equations root parameters data
  · exact .inl failed
  · obtain ⟨length, wide⟩ := jacobian_shape linearized
    rw [List.length_append] at wide
    exact .inr ⟨residuals, rows, linearized, result, gives,
      derived.solvesLinearized nonneg length wide⟩

/-- The equations `x + x' = y` and `x - x' = y'`. -/
def sumAndDifference : Function ℚ :=
  ⟨[.unknown 0, .unknown 1, .parameter 0, .parameter 1, .operate .add 0 1, .operate .sub 4 2,
    .operate .sub 0 1, .operate .sub 6 3], [.always 5, .always 7]⟩

/-- The derivative of the root `(2, 1)` at the parameters `(3, 1)`. -/
theorem rootDerivative_sumAndDifference : 0 ≤ (epsilon : ℚ) ∧
    Gives (rootDerivative (.ofFunction sumAndDifference) [2, 1] [3, 1] {})
      (.ok [[1 / 2, 1 / 2], [1 / 2, -1 / 2]]) ∧
    SolvesLinearized 2 2 [0, 0] [[1, 1, -1, 0], [1, -1, 0, -1]]
      (.ok [[(1 / 2 : ℚ), 1 / 2], [1 / 2, -1 / 2]]) := by
  have found : Equations.linearized (.ofFunction sumAndDifference) {} [2, 1] [3, 1] =
      .ok ([0, 0], [[1, 1, -1, 0], [1, -1, 0, -1]]) := by decide +kernel
  have block :
      ((rootDerivative (.ofFunction sumAndDifference) [2, 1] [3, 1] {}).run.run.run #[]).1 =
        .ok (.ok [[1 / 2, 1 / 2], [1 / 2, -1 / 2]]) := by decide +kernel
  obtain ⟨_, failed, -⟩ | ⟨residuals, rows, linearized, result, gives, solves⟩ :=
    rootDerivative_solvesLinearized le_rfl (.ofFunction sumAndDifference) [2, 1] [3, 1] {}
  · cases found.symm.trans failed
  · cases found.symm.trans linearized
    have same := gives
    obtain ⟨events, ran⟩ := same
    rw [ran] at block
    cases block
    exact ⟨le_rfl, gives, solves⟩

end Solver

end ImplicitDiff
