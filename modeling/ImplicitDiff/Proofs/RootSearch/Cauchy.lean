import Mathlib.Tactic
import ImplicitDiff.Proofs.RootSearch.Linear
import ImplicitDiff.Proofs.RootSearch.Scales
import ImplicitDiff.Proofs.RootSearch.TrustRegion

/-! # The promise of a dogleg step

Straight against the gradient the residual of a model is a quadratic in the length of the step, so
its lowest value within a radius is at the bottom or at the radius. The dogleg step goes there or,
from there, some part of the way to the solution of the model, and on that part the residual shrinks
in proportion. So it promises at least what the best step against the gradient does, and where there
is a gradient it promises something.
-/

namespace ImplicitDiff

open Arith
open scoped Matrix

variable {F : Type}

section Quadratic

variable [ExactOrderedField F] {n : Nat} {b : Matrix (Fin n) (Fin n) F} {f : Fin n → F} {t u : F}

/-- A place before the bottom is lower than those before it, and the bottom is lower than all. -/
theorem residual_descent_le
    (short : t * ((b *ᵥ (f ᵥ* b)) ⬝ᵥ (b *ᵥ (f ᵥ* b))) ≤ (f ᵥ* b) ⬝ᵥ (f ᵥ* b))
    (lowest : t * ((b *ᵥ (f ᵥ* b)) ⬝ᵥ (b *ᵥ (f ᵥ* b))) = (f ᵥ* b) ⬝ᵥ (f ᵥ* b) ∨ u ≤ t) :
    (f + b *ᵥ -(t • (f ᵥ* b))) ⬝ᵥ (f + b *ᵥ -(t • (f ᵥ* b))) ≤
      (f + b *ᵥ -(u • (f ᵥ* b))) ⬝ᵥ (f + b *ᵥ -(u • (f ᵥ* b))) := by
  have rise := dotProduct_self_nonneg (b *ᵥ (f ᵥ* b))
  rw [residual_descent, residual_descent]
  generalize (b *ᵥ (f ᵥ* b)) ⬝ᵥ (b *ᵥ (f ᵥ* b)) = h at *
  generalize (f ᵥ* b) ⬝ᵥ (f ᵥ* b) = g at *
  -- The difference is a square and what the way from `t` to `u` still goes down.
  have square := mul_nonneg (mul_self_nonneg (u - t)) rise
  have downhill : 0 ≤ (u - t) * (t * h - g) := by
    rcases lowest with bottom | before
    · rw [bottom, sub_self, mul_zero]
    · exact mul_nonneg_of_nonpos_of_nonpos (sub_nonpos.mpr before) (sub_nonpos.mpr short)
  linarith

variable {u v target : Fin n → F}

/-- A vector is some part of another one. -/
def IsPart (u v : Fin n → F) : Prop := ∃ part : F, 0 ≤ part ∧ part ≤ 1 ∧ u = part • v

namespace IsPart

theorem refl (v : Fin n → F) : IsPart v v := ⟨1, zero_le_one, le_rfl, (one_smul ..).symm⟩

theorem zero (v : Fin n → F) : IsPart 0 v := ⟨0, le_rfl, zero_le_one, (zero_smul ..).symm⟩

/-- Some part of the way to the solution leaves some part of the residual. -/
theorem towards (solves : b *ᵥ target = -f) {place : F} (forward : 0 ≤ place) (within : place ≤ 1)
    (v : Fin n → F) : IsPart (f + b *ᵥ (v + place • (target - v))) (f + b *ᵥ v) :=
  ⟨1 - place, sub_nonneg.mpr within, sub_le_self 1 forward, residual_towards solves v place⟩

private theorem magnitude_le [ExactRoots F] (part : IsPart u v) : magnitude u ≤ magnitude v := by
  obtain ⟨c, least, most, rfl⟩ := part
  rw [magnitude_smul least]
  exact mul_le_of_le_one_left (magnitude_nonneg v) most

end IsPart

end Quadratic

namespace LinearModel

section Steps

variable [Arith F]

/-- A step against the gradient, which has each scale twice: once for the slope along an unknown and
once for the way. -/
def IsDownhill (m : LinearModel F) (step : List F) : Prop :=
  ∃ t, 0 ≤ t ∧
    step = (shrink m.scale (shrink m.scale (m.jacobian.applyTranspose m.residual))).map
      fun g => -(t * g)

/-- A step against the gradient and inside the radius with the shortest residual of all of them. -/
structure IsCauchyStep (m : LinearModel F) (radius : F) (step : List F) : Prop where
  downhill : m.IsDownhill step
  inside : scaledNorm m.scale step ≤ radius
  lowest (other : List F) : m.IsDownhill other → scaledNorm m.scale other ≤ radius →
    norm (m.residualAfter step) ≤ norm (m.residualAfter other)

/-- The step straight against the gradient, to the lowest point or to the radius. -/
def straightStep (m : LinearModel F) (radius : F) : List F :=
  shrink m.scale (descend m.gradient (min m.steepestDistance radius))

end Steps

variable [ExactOrderedField F] {m : LinearModel F} {n : Nat} {step : List F} {radius : F}

/-- In scaled variables a step is what it was before it was shrunk. -/
theorem IsSquare.vector_residualAfter_shrink (square : m.IsSquare n) (units : Units m.scale n)
    (fits : m.residual.length = n) {z : List F} (length : z.length = n) :
    vector (m.residualAfter (shrink m.scale z)) n =
      vector m.residual n + m.scaledMatrix n *ᵥ vector z n := by
  rw [square.vector_residualAfter units fits (units.length_shrink_eq length),
    units.stretch_shrink length.le]

/-- A step against the gradient, in scaled variables. -/
theorem IsSquare.vector_downhill (square : m.IsSquare n) (units : Units m.scale n) (t : F) :
    ((shrink m.scale m.gradient).map fun g => -(t * g)).length = n ∧
      vector (stretch m.scale ((shrink m.scale m.gradient).map fun g => -(t * g))) n =
        -(t • (vector m.residual n ᵥ* m.scaledMatrix n)) := by
  have steep := square.length_gradient
  have length : ((shrink m.scale m.gradient).map fun g => -(t * g)).length = n :=
    (List.length_map _).trans (square.length_shrink steep)
  refine ⟨length, ?_⟩
  rw [vector_stretch units.length length, vector_map _ (square.length_shrink steep),
    vector_shrink units.length steep, ← square.vector_gradient]
  funext i
  have nonzero : vector m.scale n i ≠ 0 := by
    have inside : i.val < m.scale.length := units.length.symm ▸ i.isLt
    rw [vector_apply, List.getD_eq_getElem _ _ inside]
    exact units.ne_zero inside
  simp only [Pi.neg_apply, Pi.smul_apply, smul_eq_mul]
  rw [mul_neg, mul_left_comm, mul_div_cancel₀ _ nonzero]

theorem IsSquare.vector_residualAfter_downhill (square : m.IsSquare n) (units : Units m.scale n)
    (fits : m.residual.length = n) (t : F) :
    vector (m.residualAfter ((shrink m.scale m.gradient).map fun g => -(t * g))) n =
      vector m.residual n +
        m.scaledMatrix n *ᵥ -(t • (vector m.residual n ᵥ* m.scaledMatrix n)) := by
  obtain ⟨length, entries⟩ := square.vector_downhill units t
  rw [square.vector_residualAfter units fits length, entries]

/-- Without a way there is no change. -/
theorem IsSquare.vector_residualAfter_still (square : m.IsSquare n) (units : Units m.scale n)
    (fits : m.residual.length = n) :
    vector (m.residualAfter ((shrink m.scale m.gradient).map fun g => -(0 * g))) n =
      vector m.residual n := by
  rw [square.vector_residualAfter_downhill units fits, zero_smul, neg_zero, Matrix.mulVec_zero,
    add_zero]

theorem straightStep_eq (m : LinearModel F) (radius : F) :
    m.straightStep radius = (shrink m.scale m.gradient).map
      fun g => -(min m.steepestDistance radius / norm m.gradient * g) := by
  unfold straightStep shrink descend
  rw [List.zipWith_map_left, List.map_zipWith]
  congr 1
  funext g d
  ring

/-- The step that solves the model. -/
theorem IsSquare.apply_newtonStep (square : m.IsSquare n) (nonneg : 0 ≤ (epsilon : F))
    (fits : m.residual.length = n) (found : m.newtonStep? = some step) :
    m.jacobian.apply step = m.residual.map fun r => -r := by
  obtain ⟨factors, factored, rfl⟩ := Option.map_eq_some_iff.mp found
  have length : (m.residual.map fun r => -r).length = n := (List.length_map _).trans fits
  have long : (factors.solve (m.residual.map fun r => -r)).length = n := by
    rw [Factors.length_solve, Rows.factor?_length factored, square.jacobian.length]
  exact (square.jacobian.apply_eq_iff nonneg factored length long).mpr rfl

/-- Without a gradient the bent step goes some part of the way to the solution, if there is one. -/
theorem IsSquare.isPart_bentStep_of_flat (square : m.IsSquare n) (units : Units m.scale n)
    (fits : m.residual.length = n) (positive : 0 < radius) (slope : norm m.gradient = 0)
    {target : Option (List F)} (away : ∀ z ∈ target, z.length = n ∧ radius < norm z)
    (solves : ∀ z ∈ target, m.scaledMatrix n *ᵥ vector z n = -vector m.residual n) :
    IsPart (vector (m.residualAfter (m.bentStep radius target)) n) (vector m.residual n) := by
  unfold bentStep
  rw [if_pos (by simp [slope])]
  cases target with
  | none =>
    have zeros : (m.scale.map fun _ => (0 : F)) = shrink m.scale (m.scale.map fun _ => 0) := by
      rw [shrink, List.zipWith_map_left, List.zipWith_self]
      simp
    have none : vector (m.scale.map fun _ => (0 : F)) n = 0 := vector_map _ units.length
    dsimp only
    rw [zeros, square.vector_residualAfter_shrink units fits
      ((List.length_map _).trans units.length), none, Matrix.mulVec_zero, add_zero]
    exact .refl _
  | some z =>
    obtain ⟨length, outside⟩ := away z rfl
    have far : 0 < norm z := positive.trans outside
    have entries : vector (z.map fun x => x * (radius / norm z)) n =
        0 + (radius / norm z) • (vector z n - 0) := by
      rw [vector_map _ length, sub_zero, zero_add]
      exact funext fun i => mul_comm ..
    have part := IsPart.towards (solves z rfl) (div_nonneg positive.le far.le)
      ((div_le_one far).mpr outside.le) 0
    dsimp only
    rw [square.vector_residualAfter_shrink units fits ((List.length_map _).trans length), entries]
    rwa [Matrix.mulVec_zero, add_zero] at part

variable [ExactRoots F]

/-- The share of the gradient that the straight step goes. -/
theorem IsSquare.straightShare_nonneg (square : m.IsSquare n) (positive : 0 < radius) :
    0 ≤ min m.steepestDistance radius / norm m.gradient := by
  by_cases slope : norm m.gradient = 0
  · rw [slope, div_zero]
  · have nonneg := steepestDistance_nonneg (square.rise_ne_zero slope)
    exact div_nonneg (le_min nonneg positive.le) (norm_nonneg _)

theorem IsSquare.scaledNorm_downhill (square : m.IsSquare n) (units : Units m.scale n) {t : F}
    (nonneg : 0 ≤ t) :
    scaledNorm m.scale ((shrink m.scale m.gradient).map fun g => -(t * g)) =
      t * norm m.gradient := by
  obtain ⟨length, entries⟩ := square.vector_downhill units t
  rw [scaledNorm, norm_eq_magnitude (units.length_stretch_eq length), entries, magnitude_neg,
    magnitude_smul nonneg, ← square.vector_gradient, ← norm_eq_magnitude square.length_gradient]

/-- No step against the gradient promises more than the straight one, inside the radius. -/
theorem IsSquare.norm_straightStep_le (square : m.IsSquare n) (units : Units m.scale n)
    (fits : m.residual.length = n) {t : F} (inside : t * norm m.gradient ≤ radius) :
    norm (m.residualAfter (m.straightStep radius)) ≤
      norm (m.residualAfter ((shrink m.scale m.gradient).map fun g => -(t * g))) := by
  rw [straightStep_eq, norm_eq_magnitude (square.length_residualAfter fits _),
    norm_eq_magnitude (square.length_residualAfter fits _),
    square.vector_residualAfter_downhill units fits,
    square.vector_residualAfter_downhill units fits, magnitude_le_iff]
  by_cases slope : norm m.gradient = 0
  · have flat := slope
    rw [norm_eq_magnitude square.length_gradient, magnitude_eq_zero_iff, square.vector_gradient]
      at flat
    rw [flat, smul_zero, smul_zero]
  have steep : 0 < norm m.gradient := (norm_nonneg _).lt_of_ne' slope
  have bottom := square.steepestDistance_eq slope
  refine residual_descent_le ?_ ?_
  · rw [← bottom]
    have before : min m.steepestDistance radius / norm m.gradient ≤
        m.steepestDistance / norm m.gradient := by
      gcongr
      exact min_le_left ..
    exact mul_le_mul_of_nonneg_right before (dotProduct_self_nonneg _)
  · rcases le_total m.steepestDistance radius with short | far
    · exact .inl (by rw [min_eq_left short, bottom])
    · exact .inr (by rwa [min_eq_right far, le_div_iff₀ steep])

private theorem IsSquare.norm_straightStep_le_norm (square : m.IsSquare n) (units : Units m.scale n)
    (fits : m.residual.length = n) (positive : 0 < radius) :
    norm (m.residualAfter (m.straightStep radius)) ≤ norm m.residual := by
  have still := square.norm_straightStep_le units fits ((zero_mul _).trans_le positive.le)
  refine still.trans_eq ?_
  rw [norm_eq_magnitude (square.length_residualAfter fits _),
    square.vector_residualAfter_still units fits, ← norm_eq_magnitude fits]

/-- The straight step is a best one against the gradient. -/
theorem IsSquare.straightStep_isCauchyStep (square : m.IsSquare n) (units : Units m.scale n)
    (fits : m.residual.length = n) (positive : 0 < radius) :
    m.IsCauchyStep radius (m.straightStep radius) where
  downhill := ⟨_, square.straightShare_nonneg positive, straightStep_eq m radius⟩
  inside := by
    rw [straightStep_eq, square.scaledNorm_downhill units (square.straightShare_nonneg positive)]
    by_cases slope : norm m.gradient = 0
    · rw [slope, mul_zero]
      exact positive.le
    · rw [div_mul_cancel₀ _ slope]
      exact min_le_right ..
  lowest other downhill inside := by
    obtain ⟨t, nonneg, rfl⟩ := downhill
    refine square.norm_straightStep_le units fits ?_
    rwa [← square.scaledNorm_downhill units nonneg]

/-- The bent step is straight as long as the straight step is the best one against the gradient, and
then goes some part of the way to the solution, if there is one. -/
theorem IsSquare.isPart_bentStep (square : m.IsSquare n) (units : Units m.scale n)
    (fits : m.residual.length = n) (positive : 0 < radius) {target : Option (List F)}
    (away : ∀ z ∈ target, z.length = n ∧ radius < norm z)
    (solves : ∀ z ∈ target, m.scaledMatrix n *ᵥ vector z n = -vector m.residual n) :
    IsPart (vector (m.residualAfter (m.bentStep radius target)) n)
      (vector (m.residualAfter (m.straightStep radius)) n) := by
  by_cases slope : norm m.gradient = 0
  · have still : vector (m.residualAfter (m.straightStep radius)) n = vector m.residual n := by
      rw [straightStep_eq, slope, div_zero, square.vector_residualAfter_still units fits]
    rw [still]
    exact square.isPart_bentStep_of_flat units fits positive slope away solves
  unfold bentStep
  rw [if_neg (by simp [slope])]
  cases target with
  | none => exact .refl _
  | some z =>
    obtain ⟨length, outside⟩ := away z rfl
    by_cases before : m.steepestDistance < radius
    · have nonneg := steepestDistance_nonneg (square.rise_ne_zero slope)
      have bottom := square.length_descend_gradient m.steepestDistance
      obtain ⟨above, below, entries, -⟩ := crossing_spec bottom length
        ((norm_descend slope nonneg).trans_lt before) outside
      have wide := (length_crossing radius (length.trans bottom.symm)).trans bottom
      simp only [if_pos before]
      rw [straightStep, min_eq_left before.le, square.vector_residualAfter_shrink units fits wide,
        square.vector_residualAfter_shrink units fits bottom, entries]
      exact .towards (solves z rfl) above.le below.le _
    · simp only [if_neg before]
      exact .refl _

/-- The dogleg step leaves no more of the residual than the straight step. -/
theorem IsSquare.norm_dogleg_le (square : m.IsSquare n) (units : Units m.scale n)
    (nonneg : 0 ≤ (epsilon : F)) (fits : m.residual.length = n) (positive : 0 < radius) :
    norm (m.residualAfter (m.dogleg radius)) ≤ norm (m.residualAfter (m.straightStep radius)) := by
  rw [norm_eq_magnitude (square.length_residualAfter fits _),
    norm_eq_magnitude (square.length_residualAfter fits _)]
  refine IsPart.magnitude_le ?_
  unfold dogleg
  cases found : m.newtonStep? with
  | none =>
    exact square.isPart_bentStep units fits positive (fun _ none => (nomatch none))
      fun _ none => (nomatch none)
  | some p =>
    have length := square.length_newtonStep found
    have solves := square.scaledMatrix_mulVec units length fits
      (square.apply_newtonStep nonneg fits found)
    dsimp only
    split_ifs with inside
    · rw [square.vector_residualAfter units fits length, solves, add_neg_cancel]
      exact .zero _
    · refine square.isPart_bentStep units fits positive ?_ ?_
      · rintro _ ⟨⟩
        exact ⟨units.length_stretch_eq length, not_le.mp inside⟩
      · rintro _ ⟨⟩
        exact solves

/-- There is a gradient in scaled variables, if there is one in the unknowns. -/
theorem IsSquare.norm_gradient_ne_zero (square : m.IsSquare n) (units : Units m.scale n)
    (sloped : ∃ g ∈ m.jacobian.applyTranspose m.residual, g ≠ 0) : norm m.gradient ≠ 0 := by
  obtain ⟨g, member, nonzero⟩ := sloped
  have length : (m.jacobian.applyTranspose m.residual).length = n :=
    square.jacobian.length_applyTranspose _
  intro flat
  rw [norm_eq_zero_iff, ← units.forall_stretch_eq_zero_iff square.length_gradient.le, gradient,
    units.stretch_shrink length.le] at flat
  exact nonzero (flat g member)

private theorem IsSquare.steepestDistance_pos (square : m.IsSquare n)
    (slope : norm m.gradient ≠ 0) : 0 < m.steepestDistance := by
  refine (steepestDistance_nonneg (square.rise_ne_zero slope)).lt_of_ne' fun zero => slope ?_
  have bottom := square.steepestDistance_eq slope
  rw [zero, zero_div, zero_mul, eq_comm, dotProduct_self_eq_zero, ← square.vector_gradient]
    at bottom
  rwa [norm_eq_magnitude square.length_gradient, magnitude_eq_zero_iff]

/-- Where there is a gradient, the straight step promises a shorter residual. -/
theorem IsSquare.norm_straightStep_lt (square : m.IsSquare n) (units : Units m.scale n)
    (fits : m.residual.length = n) (positive : 0 < radius) (slope : norm m.gradient ≠ 0) :
    norm (m.residualAfter (m.straightStep radius)) < norm m.residual := by
  have steep := square.length_descend_gradient (min m.steepestDistance radius)
  have distance : 0 < min m.steepestDistance radius :=
    lt_min (square.steepestDistance_pos slope) positive
  have shrunk :=
    (square.onDescent_descend slope distance.le (min_le_left ..)).residual_le
  rw [← norm_eq_magnitude steep, norm_descend slope distance.le, ← square.vector_gradient,
    ← norm_eq_magnitude square.length_gradient] at shrunk
  have gain := mul_pos distance ((norm_nonneg _).lt_of_ne' slope)
  rw [straightStep, norm_eq_magnitude (square.length_residualAfter fits _),
    norm_eq_magnitude fits, square.vector_residualAfter_shrink units fits steep,
    lt_iff_lt_of_le_iff_le magnitude_le_iff]
  linarith

end LinearModel

/-! ## The promise in a search -/

namespace RootSearch

open LinearModel

/-- The part of its square by which the linear model promises that the residual goes down. -/
def State.promised [Arith F] (s : State F) (t : Trial F) : F :=
  let promisedNorm := ImplicitDiff.norm (s.residualAfter t.step)
  if promisedNorm < s.norm then relativeReduction s.norm promisedNorm else 0

/-- A trial is measured by this promise. -/
theorem State.ratio_assess [Arith F] (s : State F) (t : Trial F) (residual : List F) :
    (s.assess t residual).ratio =
      if 0 < s.promised t then (s.assess t residual).reduction / s.promised t else 0 := rfl

variable [ExactOrderedField F] [ExactRoots F]

/-- Where there is a gradient, a search tries a step with a promise. -/
theorem Visited.promised_pos {p : Problem F} {settings : Settings F} {x : List F}
    {given : List (Rows F)} {s : State F} {journal before : Journal F}
    (visited : Visited settings p x journal given s before)
    (square : ∀ jacobian ∈ given, jacobian.IsSquare x.length) (nonneg : 0 ≤ (epsilon : F))
    (positive : 0 < s.radius)
    (sloped : ∃ g ∈ s.jacobian.applyTranspose s.residual, g ≠ 0) : 0 < s.promised s.trial := by
  have sized := visited.sized square
  have units := visited.units square
  have shorter : ImplicitDiff.norm (s.residualAfter s.trial.step) < s.norm := by
    rw [visited.obtained.1]
    exact (sized.model.norm_dogleg_le units nonneg sized.residual positive).trans_lt
      (sized.model.norm_straightStep_lt units sized.residual positive
        (sized.model.norm_gradient_ne_zero units sloped))
  unfold State.promised
  dsimp only
  rw [if_pos shorter]
  exact relativeReduction_pos (norm_nonneg _) shorter

/-- **The dogleg step is at least as good as the best one against the gradient** inside the radius,
which there always is, and where there is a gradient that one makes the residual of the model
shorter. So a search measures every trial by a positive promise, as long as there is a gradient and
whatever the problem answers, if only its matrices are square. -/
theorem dogleg_promises (nonneg : 0 ≤ (epsilon : F)) :
    (∀ {n : Nat} {m : LinearModel F} {radius : F}, m.IsSquare n → Units m.scale n →
      m.residual.length = n → 0 < radius →
      (∃ step, m.IsCauchyStep radius step) ∧
      ∀ step, m.IsCauchyStep radius step →
        norm (m.residualAfter (m.dogleg radius)) ≤ norm (m.residualAfter step) ∧
        norm (m.residualAfter step) ≤ norm m.residual ∧
        ((∃ g ∈ m.jacobian.applyTranspose m.residual, g ≠ 0) →
          norm (m.residualAfter step) < norm m.residual)) ∧
    (∀ {p : Problem F} {settings : Settings F} {x : List F} {given : List (Rows F)} {s : State F}
      {journal before : Journal F}, Visited settings p x journal given s before →
      (∀ jacobian ∈ given, jacobian.IsSquare x.length) → 0 < s.radius →
      (∃ g ∈ s.jacobian.applyTranspose s.residual, g ≠ 0) →
      0 < s.promised s.trial ∧ ∀ residual, (s.assess s.trial residual).ratio =
        (s.assess s.trial residual).reduction / s.promised s.trial) := by
  constructor
  · intro n m radius square units fits positive
    have straight := square.straightStep_isCauchyStep units fits positive
    refine ⟨⟨_, straight⟩, fun step best => ⟨?_, ?_, fun sloped => ?_⟩⟩
    · exact (square.norm_dogleg_le units nonneg fits positive).trans
        (straight.lowest step best.downhill best.inside)
    · exact (best.lowest _ straight.downhill straight.inside).trans
        (square.norm_straightStep_le_norm units fits positive)
    · exact (best.lowest _ straight.downhill straight.inside).trans_lt
        (square.norm_straightStep_lt units fits positive
          (square.norm_gradient_ne_zero units sloped))
  · intro p settings x given s journal before visited square positive sloped
    have promised := visited.promised_pos square nonneg positive sloped
    exact ⟨promised, fun residual => (State.ratio_assess ..).trans (if_pos promised)⟩

/-- So the step between the lowest point and the solution of `unevenSlopes`, and the first step of a
search for the root of `x - 3` from zero, have a promise. -/
theorem dogleg_promises_unevenSlopes :
    (0 : ℝ) ≤ epsilon ∧ unevenSlopes.IsSquare 2 ∧ Units unevenSlopes.scale 2 ∧
    (∃ step, unevenSlopes.IsCauchyStep 1 step) ∧
    (∀ step, unevenSlopes.IsCauchyStep 1 step →
      norm (unevenSlopes.residualAfter (unevenSlopes.dogleg 1)) ≤
        norm (unevenSlopes.residualAfter step) ∧
      norm (unevenSlopes.residualAfter step) < norm unevenSlopes.residual) ∧
    ∃ (s : State ℝ) (before : Journal ℝ), Visited ⟨1e-10, 1000, 100⟩
        (.ofFunctions (fun x => .ok (linearResidual [[1]] [3] x)) fun _ => .ok [[1]])
        [0] #[] [[[1]]] s before ∧ 0 < s.radius ∧
      0 < s.promised s.trial ∧ ∀ residual, (s.assess s.trial residual).ratio =
        (s.assess s.trial residual).reduction / s.promised s.trial := by
  have nonneg : (0 : ℝ) ≤ epsilon := le_rfl
  have square : unevenSlopes.IsSquare 2 := ⟨⟨rfl, by simp [unevenSlopes]⟩, rfl⟩
  have units : Units unevenSlopes.scale 2 := ⟨rfl, by simp [unevenSlopes]⟩
  have steep : unevenSlopes.jacobian.applyTranspose unevenSlopes.residual = [3, 4] := by
    norm_num [unevenSlopes, Rows.applyTranspose, addMultiple, List.replicate]
  have sloped : ∃ g ∈ unevenSlopes.jacobian.applyTranspose unevenSlopes.residual, g ≠ 0 :=
    ⟨3, by simp [steep], by norm_num⟩
  obtain ⟨model, promise⟩ := dogleg_promises nonneg
  obtain ⟨best, least⟩ := model square units rfl one_pos
  refine ⟨nonneg, square, units, best,
    fun step cauchy => ⟨(least step cauchy).1, (least step cauchy).2.2 sloped⟩, ?_⟩
  have residual : linearResidual [[1]] [3] [(0 : ℝ)] = [-3] := by
    simp [linearResidual, Rows.apply]
  have unsolved : norm (linearResidual [[1]] [3] [(0 : ℝ)]) ≠ 0 := by
    rw [residual, norm_singleton]
    norm_num
  let first : State ℝ :=
    .start ⟨1e-10, 1000, 100⟩ [0] (linearResidual [[1]] [3] [0]) [[1]] [|1|]
  have departs : Departs (linearAnswers [[1]] [3] 1).value (linearAnswers [[1]] [3] 1).matrix
      [(0 : ℝ)] := ⟨rfl, rfl, beq_eq_false_iff_ne.mpr unsolved, rfl⟩
  have visited : Visited _ _ _ #[] _ first _ :=
    Departs.visited (x := [0]) departs (columnNorms_singleton 1) #[]
  have positive : 0 < first.radius := by
    simp [first, State.start, scaledNorm, norm_singleton]
  have squares : ∀ jacobian ∈ [[[(1 : ℝ)]]], Rows.IsSquare jacobian 1 :=
    List.forall_mem_singleton.mpr (isSquare_one 1)
  have leans : ∃ g ∈ first.jacobian.applyTranspose first.residual, g ≠ 0 :=
    ⟨-3, by simp [first, State.start, residual, Rows.applyTranspose, addMultiple], by norm_num⟩
  have promised := promise visited squares positive leans
  exact ⟨first, _, visited, positive, promised⟩

end RootSearch

end ImplicitDiff
