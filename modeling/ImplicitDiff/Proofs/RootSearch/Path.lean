import Mathlib.Tactic
import ImplicitDiff.Proofs.RootSearch.Crossing

/-! # The bent path

In scaled variables a linear model is a matrix with a residual. The dogleg step follows a path that
first goes down against the gradient, no further than to the lowest point in that direction, and
then straight to the solution of the model. Along the path the residual of the model gets shorter,
at least as fast as the share of the distance to the solution that is covered, and the solution gets
no further away.
-/

namespace ImplicitDiff

open Arith
open scoped Matrix

variable {F : Type} [ExactOrderedField F] {n : Nat}

section Path

variable {b : Matrix (Fin n) (Fin n) F} {f target s z : Fin n → F}

/-- A point on the way against the gradient, no further than the lowest point. -/
inductive OnDescent (b : Matrix (Fin n) (Fin n) F) (f : Fin n → F) : (Fin n → F) → Prop
  | intro {t : F} : 0 ≤ t →
      t * ((b *ᵥ (f ᵥ* b)) ⬝ᵥ (b *ᵥ (f ᵥ* b))) ≤ (f ᵥ* b) ⬝ᵥ (f ᵥ* b) →
      OnDescent b f (-(t • (f ᵥ* b)))

/-- A point of the bent path: on the segment from a point on the way down to the target. -/
inductive OnPath (b : Matrix (Fin n) (Fin n) F) (f target : Fin n → F) : (Fin n → F) → Prop
  | intro {s : Fin n → F} {place : F} : OnDescent b f s → 0 ≤ place → place ≤ 1 →
      OnPath b f target (s + place • (target - s))

private theorem OnDescent.onPath (descent : OnDescent b f s) (target : Fin n → F) :
    OnPath b f target s := by
  have path : OnPath b f target (s + (0 : F) • (target - s)) :=
    .intro descent le_rfl zero_le_one
  rwa [zero_smul, add_zero] at path

/-- Where the model has the residual zero, its gradient says how far the residual has to go. -/
theorem gradient_dotProduct (solves : b *ᵥ target = -f) : (f ᵥ* b) ⬝ᵥ target = -(f ⬝ᵥ f) := by
  rw [← Matrix.dotProduct_mulVec, solves, dotProduct_neg]

private theorem gradient_ne_zero (solves : b *ᵥ target = -f) (nonzero : f ≠ 0) : f ᵥ* b ≠ 0 := by
  intro flat
  have covered := gradient_dotProduct solves
  rw [flat, zero_dotProduct, eq_comm, neg_eq_zero, dotProduct_self_eq_zero] at covered
  exact nonzero covered

theorem rise_ne_zero (slope : f ᵥ* b ≠ 0) : b *ᵥ (f ᵥ* b) ≠ 0 := by
  intro level
  have square := Matrix.dotProduct_mulVec f b (f ᵥ* b)
  rw [level, dotProduct_zero, eq_comm, dotProduct_self_eq_zero] at square
  exact slope square

/-- From a point straight to the target, the residual shrinks in proportion. -/
theorem residual_towards (solves : b *ᵥ target = -f) (s : Fin n → F) (place : F) :
    f + b *ᵥ (s + place • (target - s)) = (1 - place) • (f + b *ᵥ s) := by
  rw [Matrix.mulVec_add, Matrix.mulVec_smul, Matrix.mulVec_sub, solves]
  module

/-- The square of the residual on the way against the gradient. -/
theorem residual_descent (b : Matrix (Fin n) (Fin n) F) (f : Fin n → F) (t : F) :
    (f + b *ᵥ -(t • (f ᵥ* b))) ⬝ᵥ (f + b *ᵥ -(t • (f ᵥ* b))) =
      f ⬝ᵥ f - 2 * (t * ((f ᵥ* b) ⬝ᵥ (f ᵥ* b))) +
        t * (t * ((b *ᵥ (f ᵥ* b)) ⬝ᵥ (b *ᵥ (f ᵥ* b)))) := by
  have cross : f ⬝ᵥ b *ᵥ (f ᵥ* b) = (f ᵥ* b) ⬝ᵥ (f ᵥ* b) := Matrix.dotProduct_mulVec ..
  simp only [Matrix.mulVec_neg, Matrix.mulVec_smul, add_dotProduct, dotProduct_add,
    neg_dotProduct, dotProduct_neg, smul_dotProduct, dotProduct_smul, smul_eq_mul,
    dotProduct_comm _ f, cross]
  ring

variable [ExactRoots F]

/-- On the way down the residual shrinks at least as fast as at half the slope. -/
theorem OnDescent.residual_le (descent : OnDescent b f s) :
    (f + b *ᵥ s) ⬝ᵥ (f + b *ᵥ s) ≤ f ⬝ᵥ f - magnitude s * magnitude (f ᵥ* b) := by
  cases descent with
  | @intro t forward short =>
    have length : magnitude (-(t • (f ᵥ* b))) = t * magnitude (f ᵥ* b) := by
      rw [magnitude_neg, magnitude_smul forward]
    have lowest := mul_le_mul_of_nonneg_left short forward
    rw [residual_descent, length, mul_assoc, magnitude_mul_self]
    linarith

/-- On the way down the target gets no further away. -/
theorem OnDescent.away_le (descent : OnDescent b f s) (solves : b *ᵥ target = -f) :
    magnitude (target - s) ≤ magnitude target := by
  have shorter := descent.residual_le
  cases descent with
  | @intro t forward short =>
    have left := dotProduct_self_nonneg (f + b *ᵥ -(t • (f ᵥ* b)))
    rw [magnitude_neg, magnitude_smul forward, mul_assoc, magnitude_mul_self] at shorter
    have covered := gradient_dotProduct solves
    have expanded : (target - -(t • (f ᵥ* b))) ⬝ᵥ (target - -(t • (f ᵥ* b))) =
        target ⬝ᵥ target - 2 * (t * (f ⬝ᵥ f)) + t * (t * ((f ᵥ* b) ⬝ᵥ (f ᵥ* b))) := by
      simp only [sub_neg_eq_add, add_dotProduct, dotProduct_add, smul_dotProduct, dotProduct_smul,
        smul_eq_mul, dotProduct_comm target, covered]
      ring
    have whole := mul_le_mul_of_nonneg_left (left.trans shorter) forward
    have size := mul_nonneg forward (dotProduct_self_nonneg f)
    refine nonneg_le_nonneg_of_sq_le_sq (magnitude_nonneg _) ?_
    rw [magnitude_mul_self, magnitude_mul_self, expanded]
    linarith

/-- Along the path the square of the residual shrinks at least by the share of the distance to the
target that is covered. -/
theorem OnPath.residual_le (path : OnPath b f target z) (solves : b *ᵥ target = -f) :
    (f + b *ᵥ z) ⬝ᵥ (f + b *ᵥ z) * magnitude target ≤
      f ⬝ᵥ f * (magnitude target - magnitude z) := by
  cases path with
  | @intro s place descent forward short =>
    have left : 0 ≤ 1 - place := sub_nonneg.mpr short
    have split : s + place • (target - s) = (1 - place) • s + place • target := by module
    have length : magnitude (s + place • (target - s)) ≤
        (1 - place) * magnitude s + place * magnitude target := by
      rw [split, ← magnitude_smul left, ← magnitude_smul forward]
      exact magnitude_add_le ..
    have slope : f ⬝ᵥ f ≤ magnitude (f ᵥ* b) * magnitude target := by
      have product := dotProduct_le (-(f ᵥ* b)) target
      rwa [neg_dotProduct, gradient_dotProduct solves, neg_neg, magnitude_neg] at product
    have down := descent.residual_le
    have rest := dotProduct_self_nonneg (f + b *ᵥ s)
    have far := magnitude_nonneg target
    rw [residual_towards solves, smul_dotProduct, dotProduct_smul, smul_eq_mul, smul_eq_mul]
    calc (1 - place) * ((1 - place) * ((f + b *ᵥ s) ⬝ᵥ (f + b *ᵥ s))) * magnitude target
        ≤ 1 * ((1 - place) * ((f + b *ᵥ s) ⬝ᵥ (f + b *ᵥ s))) * magnitude target := by
          gcongr
          exact sub_le_self 1 forward
      _ ≤ (1 - place) * (f ⬝ᵥ f - magnitude s * magnitude (f ᵥ* b)) * magnitude target := by
          rw [one_mul]
          gcongr
      _ = (1 - place) *
          (f ⬝ᵥ f * magnitude target - magnitude s * (magnitude (f ᵥ* b) * magnitude target)) := by
          ring
      _ ≤ (1 - place) * (f ⬝ᵥ f * magnitude target - magnitude s * (f ⬝ᵥ f)) := by
          gcongr
          exact magnitude_nonneg s
      _ = f ⬝ᵥ f *
          (magnitude target - ((1 - place) * magnitude s + place * magnitude target)) := by
          ring
      _ ≤ f ⬝ᵥ f * (magnitude target - magnitude (s + place • (target - s))) := by
          gcongr
          exact dotProduct_self_nonneg f

/-- Along the path the target gets no further away. -/
theorem OnPath.away_le (path : OnPath b f target z) (solves : b *ᵥ target = -f) :
    magnitude (target - z) ≤ magnitude target := by
  cases path with
  | @intro s place descent forward short =>
    have rest : target - (s + place • (target - s)) = (1 - place) • (target - s) := by module
    rw [rest, magnitude_smul (sub_nonneg.mpr short)]
    calc (1 - place) * magnitude (target - s)
        ≤ 1 * magnitude (target - s) :=
          mul_le_mul_of_nonneg_right (sub_le_self 1 forward) (magnitude_nonneg _)
      _ = magnitude (target - s) := one_mul _
      _ ≤ magnitude target := descent.away_le solves

end Path

/-! ## The step of a model -/

namespace LinearModel

variable {m : LinearModel F}

/-- The residual that the model promises after a step. -/
def residualAfter {F : Type} [Arith F] (m : LinearModel F) (step : List F) : List F :=
  (m.jacobian.apply step).zipWith (fun a r => a + r) m.residual

/-- The matrix of the model in scaled variables. -/
def scaledMatrix (m : LinearModel F) (n : Nat) : Matrix (Fin n) (Fin n) F :=
  .of fun i j => m.jacobian.matrix n n i j / vector m.scale n j

theorem IsSquare.vector_gradient (square : m.IsSquare n) :
    vector m.gradient n = vector m.residual n ᵥ* m.scaledMatrix n := by
  rw [gradient, vector_shrink square.scale (square.jacobian.length_applyTranspose _),
    vector_applyTranspose square.jacobian]
  funext j
  simp only [Matrix.vecMul, dotProduct, scaledMatrix, Matrix.of_apply, Finset.sum_div,
    mul_div_assoc]

theorem IsSquare.vector_apply_shrink (square : m.IsSquare n) {v : List F} (length : v.length = n) :
    vector (m.jacobian.apply (shrink m.scale v)) n = m.scaledMatrix n *ᵥ vector v n := by
  rw [vector_apply_rows square.jacobian, vector_shrink square.scale length]
  funext i
  simp only [Matrix.mulVec, dotProduct, scaledMatrix, Matrix.of_apply]
  exact Finset.sum_congr rfl fun j _ => (mul_comm_div ..).symm

theorem IsSquare.vector_apply_stretch (square : m.IsSquare n) (units : Units m.scale n) {p : List F}
    (length : p.length = n) :
    vector (m.jacobian.apply p) n = m.scaledMatrix n *ᵥ vector (stretch m.scale p) n := by
  rw [← square.vector_apply_shrink (units.length_stretch_eq length),
    units.shrink_stretch length.le]

theorem IsSquare.length_residualAfter (square : m.IsSquare n) (fits : m.residual.length = n)
    (step : List F) : (m.residualAfter step).length = n :=
  length_zipWith_eq (square.jacobian.length_apply step) fits

theorem IsSquare.vector_residualAfter (square : m.IsSquare n) (units : Units m.scale n)
    (fits : m.residual.length = n) {step : List F} (length : step.length = n) :
    vector (m.residualAfter step) n =
      vector m.residual n + m.scaledMatrix n *ᵥ vector (stretch m.scale step) n := by
  rw [residualAfter, vector_zipWith _ (square.jacobian.length_apply step) fits,
    square.vector_apply_stretch units length]
  exact add_comm _ (vector m.residual n)

/-- The solution of the model in scaled variables. -/
theorem IsSquare.scaledMatrix_mulVec (square : m.IsSquare n) (units : Units m.scale n) {p : List F}
    (length : p.length = n) (fits : m.residual.length = n)
    (solves : m.jacobian.apply p = m.residual.map fun r => -r) :
    m.scaledMatrix n *ᵥ vector (stretch m.scale p) n = -vector m.residual n := by
  rw [← square.vector_apply_stretch units length, solves, vector_map _ fits]
  rfl

end LinearModel

theorem vector_descend {g : List F} (length : g.length = n) (distance : F) :
    vector (descend g distance) n = -((distance / norm g) • vector g n) := by
  rw [descend, vector_map _ length]
  funext i
  simp only [Pi.neg_apply, Pi.smul_apply, smul_eq_mul]
  ring

variable [ExactRoots F]

theorem norm_descend {g : List F} (nonzero : norm g ≠ 0) {distance : F} (nonneg : 0 ≤ distance) :
    norm (descend g distance) = distance := by
  have factor : 0 ≤ distance / norm g := div_nonneg nonneg (norm_nonneg g)
  rw [norm_eq_magnitude (LinearModel.length_descend g distance), vector_descend rfl, magnitude_neg,
    magnitude_smul factor, ← norm_eq_magnitude rfl, div_mul_cancel₀ _ nonzero]

namespace LinearModel

variable {m : LinearModel F} {radius distance : F}

theorem steepestDistance_nonneg
    (rises : norm (m.jacobian.apply (shrink m.scale m.gradient)) ≠ 0) :
    0 ≤ m.steepestDistance := by
  have slope := norm_nonneg m.gradient
  unfold steepestDistance
  dsimp only
  rw [if_neg (by simp [rises])]
  have rate := div_nonneg slope (norm_nonneg (m.jacobian.apply (shrink m.scale m.gradient)))
  exact mul_nonneg (mul_nonneg slope rate) rate

/-- Where there is a gradient, the model changes along it. -/
theorem IsSquare.rise_ne_zero (square : m.IsSquare n) (slope : norm m.gradient ≠ 0) :
    norm (m.jacobian.apply (shrink m.scale m.gradient)) ≠ 0 := by
  rw [norm_eq_magnitude square.length_gradient, ne_eq, magnitude_eq_zero_iff,
    square.vector_gradient] at slope
  rw [norm_eq_magnitude (square.jacobian.length_apply _), ne_eq, magnitude_eq_zero_iff,
    square.vector_apply_shrink square.length_gradient, square.vector_gradient]
  exact ImplicitDiff.rise_ne_zero slope

/-- At the lowest point against the gradient the model does not go down any more. -/
theorem IsSquare.steepestDistance_eq (square : m.IsSquare n) (slope : norm m.gradient ≠ 0) :
    m.steepestDistance / norm m.gradient *
        ((m.scaledMatrix n *ᵥ (vector m.residual n ᵥ* m.scaledMatrix n)) ⬝ᵥ
          (m.scaledMatrix n *ᵥ (vector m.residual n ᵥ* m.scaledMatrix n))) =
      (vector m.residual n ᵥ* m.scaledMatrix n) ⬝ᵥ
        (vector m.residual n ᵥ* m.scaledMatrix n) := by
  have rise := square.rise_ne_zero slope
  have rows : (m.jacobian.apply (shrink m.scale m.gradient)).length = n :=
    square.jacobian.length_apply _
  rw [← square.vector_gradient, ← square.vector_apply_shrink square.length_gradient,
    ← squares_eq_dotProduct rows, ← squares_eq_dotProduct square.length_gradient, ← norm_mul_self,
    ← norm_mul_self]
  unfold steepestDistance
  dsimp only
  rw [if_neg (by simp [rise])]
  field_simp

/-- A step against the gradient that is no longer than the way to the lowest point. -/
theorem IsSquare.onDescent_descend (square : m.IsSquare n) (slope : norm m.gradient ≠ 0)
    (nonneg : 0 ≤ distance) (short : distance ≤ m.steepestDistance) :
    OnDescent (m.scaledMatrix n) (vector m.residual n)
      (vector (descend m.gradient distance) n) := by
  rw [vector_descend square.length_gradient, square.vector_gradient]
  refine .intro (div_nonneg nonneg (norm_nonneg _)) ?_
  rw [← square.steepestDistance_eq slope]
  refine mul_le_mul_of_nonneg_right ?_ (dotProduct_self_nonneg _)
  exact div_le_div_of_nonneg_right short (norm_nonneg _)

/-- A model with a solution has a gradient where it has a residual. -/
theorem IsSquare.slope_ne_zero (square : m.IsSquare n) (units : Units m.scale n)
    {p : List F} (length : p.length = n) (fits : m.residual.length = n)
    (solves : m.jacobian.apply p = m.residual.map fun r => -r) (nonzero : norm m.residual ≠ 0) :
    norm m.gradient ≠ 0 := by
  have moves : vector m.residual n ≠ 0 := by
    rwa [norm_eq_magnitude fits, ne_eq, magnitude_eq_zero_iff] at nonzero
  rw [norm_eq_magnitude square.length_gradient, ne_eq, magnitude_eq_zero_iff,
    square.vector_gradient]
  exact gradient_ne_zero (square.scaledMatrix_mulVec units length fits solves) moves

/-- A step of a model with a solution that is out of reach ends on the path, at the radius. -/
theorem IsSquare.dogleg_outside (square : m.IsSquare n) (units : Units m.scale n) {p : List F}
    (found : m.newtonStep? = some p) (fits : m.residual.length = n)
    (solves : m.jacobian.apply p = m.residual.map fun r => -r) (nonzero : norm m.residual ≠ 0)
    (positive : 0 < radius) (outside : radius < norm (stretch m.scale p)) :
    scaledNorm m.scale (m.dogleg radius) = radius ∧
      OnPath (m.scaledMatrix n) (vector m.residual n) (vector (stretch m.scale p) n)
        (vector (stretch m.scale (m.dogleg radius)) n) := by
  have length : p.length = n := square.length_newtonStep found
  have long : (stretch m.scale p).length = n := units.length_stretch_eq length
  have slope := square.slope_ne_zero units length fits solves nonzero
  have descent := square.length_descend_gradient
  suffices reached : ∃ z : List F, z.length = n ∧ m.dogleg radius = shrink m.scale z ∧
      norm z = radius ∧ OnPath (m.scaledMatrix n) (vector m.residual n)
        (vector (stretch m.scale p) n) (vector z n) by
    obtain ⟨z, wide, step, reach, path⟩ := reached
    rw [step, scaledNorm, units.stretch_shrink wide.le]
    exact ⟨reach, path⟩
  unfold dogleg bentStep
  rw [found]
  dsimp only
  rw [if_neg outside.not_ge, if_neg (by simp [slope])]
  by_cases before : m.steepestDistance < radius
  · have nonneg : 0 ≤ m.steepestDistance := steepestDistance_nonneg (square.rise_ne_zero slope)
    have size := norm_descend slope nonneg
    obtain ⟨after, short, entries, reach⟩ :=
      crossing_spec (descent _) long (size.trans_lt before) outside
    simp only [if_pos before]
    refine ⟨_, (length_crossing radius (long.trans (descent _).symm)).trans (descent _), rfl, reach,
      ?_⟩
    rw [entries]
    exact .intro (square.onDescent_descend slope nonneg le_rfl) after.le short.le
  · have far := not_lt.mp before
    rw [if_neg before, min_eq_right far]
    refine ⟨_, descent _, rfl, norm_descend slope positive.le, ?_⟩
    exact (square.onDescent_descend slope positive.le far).onPath _

end LinearModel

end ImplicitDiff
