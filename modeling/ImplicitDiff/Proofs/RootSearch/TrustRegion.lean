import Mathlib.Tactic
import ImplicitDiff.Proofs.Dense.Checked
import ImplicitDiff.Proofs.RootSearch.Path

/-! # Steps inside the trust region

Whether its matrix is singular or not, the dogleg step of a model is no longer than the radius, and
where the path leaves the region on its second part, the step ends on the boundary. No branch has a
use for a quotient by zero: the model changes along a gradient that is not zero, so there always is
a lowest point in that direction.
-/

namespace ImplicitDiff

open Arith

variable {F : Type}

/-! ## The length of a step -/

namespace LinearModel

variable [ExactOrderedField F] [ExactRoots F] {m : LinearModel F} {n : Nat} {radius : F}

/-- A bent step is no longer than the radius, if its target is further away. -/
theorem IsSquare.exists_bentStep (square : m.IsSquare n) (positive : 0 < radius)
    {target : Option (List F)} (away : ∀ z ∈ target, z.length = n ∧ radius < norm z) :
    ∃ z, z.length = n ∧ m.bentStep radius target = shrink m.scale z ∧ norm z ≤ radius := by
  unfold bentStep
  by_cases slope : norm m.gradient = 0
  · rw [if_pos (by simp [slope])]
    cases target with
    | none =>
      refine ⟨m.scale.map fun _ => 0, (List.length_map _).trans square.scale, ?_, ?_⟩
      · rw [shrink, List.zipWith_map_left, List.zipWith_self]
        simp
      · rw [norm_eq_zero_iff.mpr (by simp)]
        exact positive.le
    | some z =>
      obtain ⟨length, outside⟩ := away z rfl
      have far : norm z ≠ 0 := (positive.trans outside).ne'
      have reach : norm (z.map fun x => x * (radius / norm z)) = radius := by
        simp only [mul_comm _ (radius / norm z)]
        rw [norm_scale (div_nonneg positive.le (norm_nonneg z)), div_mul_cancel₀ _ far]
      exact ⟨_, (List.length_map _).trans length, rfl, reach.le⟩
  · rw [if_neg (by simp [slope])]
    dsimp only
    have nonneg : 0 ≤ m.steepestDistance := steepestDistance_nonneg (square.rise_ne_zero slope)
    have straight : norm (descend m.gradient (min m.steepestDistance radius)) ≤ radius := by
      rw [norm_descend slope (le_min nonneg positive.le)]
      exact min_le_right ..
    have steep := square.length_descend_gradient
    cases target with
    | none => exact ⟨_, steep _, rfl, straight⟩
    | some z =>
      obtain ⟨length, outside⟩ := away z rfl
      by_cases before : m.steepestDistance < radius
      · have inside := (norm_descend slope nonneg).trans_lt before
        have reach := (crossing_spec (steep _) length inside outside).2.2.2
        simp only [if_pos before]
        exact ⟨_, (length_crossing radius (length.trans (steep _).symm)).trans (steep _), rfl,
          reach.le⟩
      · simp only [if_neg before]
        exact ⟨_, steep _, rfl, straight⟩

/-- A step is no longer than the radius. -/
theorem IsSquare.scaledNorm_dogleg_le (square : m.IsSquare n) (units : Units m.scale n)
    (positive : 0 < radius) : scaledNorm m.scale (m.dogleg radius) ≤ radius := by
  have bent {target : Option (List F)} (away : ∀ z ∈ target, z.length = n ∧ radius < norm z) :
      scaledNorm m.scale (m.bentStep radius target) ≤ radius := by
    obtain ⟨z, length, step, reach⟩ := square.exists_bentStep positive away
    rw [step, scaledNorm, units.stretch_shrink length.le]
    exact reach
  unfold dogleg
  cases found : m.newtonStep? with
  | none => exact bent fun _ none => by cases none
  | some p =>
    dsimp only
    split_ifs with inside
    · exact inside
    · refine bent ?_
      rintro _ ⟨⟩
      exact ⟨units.length_stretch_eq (square.length_newtonStep found), not_le.mp inside⟩

/-- Where the path leaves the region between the lowest point and the solution of the model, the
step ends on the boundary, at a place strictly between the two. -/
theorem IsSquare.dogleg_interpolates (square : m.IsSquare n) (units : Units m.scale n) {p : List F}
    (found : m.newtonStep? = some p) (outside : radius < scaledNorm m.scale p)
    (slope : norm m.gradient ≠ 0) (before : m.steepestDistance < radius) :
    let near := descend m.gradient m.steepestDistance
    let far := stretch m.scale p
    let place := (crossingQuadratic radius near far).place
    m.dogleg radius = shrink m.scale (near.zipWith (fun s v => s + place * v)
      (far.zipWith (fun z s => z - s) near)) ∧
    0 < place ∧ place < 1 ∧ scaledNorm m.scale (m.dogleg radius) = radius := by
  intro near far place
  have step : m.dogleg radius = shrink m.scale (crossing radius near far) := by
    unfold dogleg bentStep
    rw [found]
    dsimp only
    rw [if_neg (not_le.mpr outside : ¬norm (stretch m.scale p) ≤ radius),
      if_neg (by simp [slope]), if_pos before]
  have nonneg : 0 ≤ m.steepestDistance := steepestDistance_nonneg (square.rise_ne_zero slope)
  have steep : near.length = n := square.length_descend_gradient m.steepestDistance
  have long : far.length = n := units.length_stretch_eq (square.length_newtonStep found)
  have inside : norm near < radius := (norm_descend slope nonneg).trans_lt before
  obtain ⟨after, short, -, reach⟩ := crossing_spec steep long inside outside
  have wide := (length_crossing radius (long.trans steep.symm)).trans steep
  refine ⟨step, after, short, ?_⟩
  rw [step, scaledNorm, units.stretch_shrink wide.le, reach]

end LinearModel

/-! ## Steps of checked numbers -/

section Vectors

open Checked

variable [Arith F]

private theorem stretch_number (scale v : List F) :
    stretch (scale.map number) (v.map number) = (stretch scale v).map number := by
  rw [stretch, List.zipWith_map, stretch, List.map_zipWith]
  rfl

theorem shrink_number {scale : List F} (nonzero : ∀ d ∈ scale, (d == 0) = false) (v : List F) :
    shrink (scale.map number) (v.map number) = (shrink scale v).map number := by
  induction scale generalizing v with
  | nil => simp [shrink]
  | cons d scale ih =>
    obtain ⟨first, rest⟩ := List.forall_mem_cons.mp nonzero
    cases v with
    | nil => rfl
    | cons z v =>
      have below := ih rest v
      rw [shrink] at below ⊢
      rw [List.map_cons, List.map_cons, List.zipWith_cons_cons, below, number_div first]
      rfl

theorem descend_number {g : List F} (nonzero : (norm g == 0) = false) (distance : F) :
    descend (g.map number) (number distance) = (descend g distance).map number := by
  rw [descend, norm_number, number_div nonzero, descend, List.map_map, List.map_map]
  rfl

/-- The quadratic with checked coefficients. -/
def Quadratic.checked (q : Quadratic F) : Quadratic (Checked F) :=
  ⟨number q.square, number q.linear, number q.constant⟩

private theorem Quadratic.place_checked {q : Quadratic F}
    (first : 0 ≤ q.linear → (q.linear + q.root == 0) = false)
    (second : (q.square + q.square == 0) = false) : q.checked.place = number q.place := by
  change (if 0 ≤ q.linear then number (-(q.constant + q.constant)) / number (q.linear + q.root)
    else number (q.root - q.linear) / number (q.square + q.square)) = _
  rw [place]
  split_ifs with sign
  · exact number_div (first sign) _
  · exact number_div second _

theorem zipWith_sub_number (u v : List F) :
    (u.map number).zipWith (fun z s => z - s) (v.map number) =
      (u.zipWith (fun z s => z - s) v).map number := by
  rw [List.zipWith_map, List.map_zipWith]
  rfl

private theorem crossingQuadratic_checked (radius : F) (near far : List F) :
    crossingQuadratic (number radius) (near.map number) (far.map number) =
      (crossingQuadratic radius near far).checked := by
  unfold crossingQuadratic
  dsimp only
  rw [zipWith_sub_number, dot_number, dot_number, dot_number]
  rfl

end Vectors

open Checked

private theorem crossing_number [ExactOrderedField F] [ExactRoots F] {radius : F}
    {near far : List F} (changes : (crossingQuadratic radius near far).ChangesSign) :
    crossing (number radius) (near.map number) (far.map number) =
      (crossing radius near far).map number := by
  have place := Quadratic.place_checked
    (fun sign => beq_eq_false_iff_ne.mpr (changes.divisor_pos.1 sign).ne')
    (beq_eq_false_iff_ne.mpr changes.divisor_pos.2.ne')
  rw [crossing_eq, crossingQuadratic_checked, place, zipWith_sub_number, List.zipWith_map,
    crossing_eq, List.map_zipWith]
  rfl

namespace LinearModel

/-- The model with checked numbers. -/
def checked (m : LinearModel F) : LinearModel (Checked F) :=
  { residual := m.residual.map number, jacobian := m.jacobian.checked
    scale := m.scale.map number }

section Steepest

variable [Arith F] {m : LinearModel F}

theorem gradient_checked (nonzero : ∀ d ∈ m.scale, (d == 0) = false) :
    m.checked.gradient = m.gradient.map number := by
  rw [gradient, gradient]
  change shrink (m.scale.map number) (m.jacobian.checked.applyTranspose (m.residual.map number)) = _
  rw [Rows.applyTranspose_number, shrink_number nonzero]

private theorem steepestDistance_checked (nonzero : ∀ d ∈ m.scale, (d == 0) = false) :
    m.checked.steepestDistance = number m.steepestDistance := by
  unfold steepestDistance
  rw [gradient_checked nonzero, norm_number]
  change (let slope := number (norm m.gradient)
    let rise := norm (m.jacobian.checked.apply
      (shrink (m.scale.map number) (m.gradient.map number)))
    if rise == 0 then infinity else slope * (slope / rise) * (slope / rise)) = _
  rw [shrink_number nonzero, Rows.apply_number, norm_number, number_zero]
  dsimp only
  rw [number_beq]
  cases level : norm (m.jacobian.apply (shrink m.scale m.gradient)) == 0 with
  | true => rfl
  | false =>
    rw [number_div level]
    rfl

end Steepest

variable [ExactOrderedField F] [ExactRoots F] {m : LinearModel F} {n : Nat} {radius : F}

/-- A bent step has no use for a quotient by zero, if its target is out of reach. -/
theorem IsSquare.bentStep_checked (square : m.IsSquare n) (units : Units m.scale n)
    (positive : 0 < radius) (target : Option (List F))
    (away : ∀ z ∈ target, z.length = n ∧ radius < norm z) :
    m.checked.bentStep (number radius) (target.map (List.map number)) =
      (m.bentStep radius target).map number := by
  have nonzero : ∀ d ∈ m.scale, (d == 0) = false := fun d member =>
    beq_eq_false_iff_ne.mpr (units.pos member).ne'
  have scale : m.checked.scale = m.scale.map number := rfl
  unfold bentStep
  rw [gradient_checked nonzero, norm_number, number_zero, number_beq,
    steepestDistance_checked nonzero, scale]
  cases slope : norm m.gradient == 0 with
  | true =>
    rw [if_pos rfl, if_pos rfl]
    cases target with
    | none =>
      change (m.scale.map number).map (fun _ => number 0) = _
      rw [List.map_map, List.map_map]
      rfl
    | some z =>
      have far : (norm z == 0) = false :=
        beq_eq_false_iff_ne.mpr (positive.trans (away z rfl).2).ne'
      change shrink (m.scale.map number)
        ((z.map number).map fun x => x * (number radius / norm (z.map number))) = _
      rw [norm_number, number_div far, List.map_map, ← shrink_number nonzero, List.map_map]
      rfl
  | false =>
    rw [if_neg Bool.false_ne_true, if_neg Bool.false_ne_true]
    dsimp only
    rw [number_min, descend_number slope, descend_number slope]
    cases target with
    | none => exact shrink_number nonzero _
    | some z =>
      obtain ⟨length, outside⟩ := away z rfl
      have steep : norm m.gradient ≠ 0 := beq_eq_false_iff_ne.mp slope
      simp only [Option.map_some, number_lt]
      split_ifs with before
      · have nonneg := steepestDistance_nonneg (square.rise_ne_zero steep)
        rw [crossing_number (crossingQuadratic_changesSign (square.length_descend_gradient _) length
          ((norm_descend steep nonneg).trans_lt before) outside), shrink_number nonzero]
      · exact shrink_number nonzero _

/-- A step has no use for a quotient by zero. -/
theorem IsSquare.dogleg_checked (square : m.IsSquare n) (units : Units m.scale n)
    (nonneg : 0 ≤ (epsilon : F)) (positive : 0 < radius) :
    m.checked.dogleg (number radius) = (m.dogleg radius).map number := by
  have newton : m.checked.newtonStep? = m.newtonStep?.map (List.map number) := by
    have opposite : (m.residual.map number).map (fun r => -r) =
        (m.residual.map fun r => -r).map number := by
      rw [List.map_map, List.map_map]
      rfl
    change m.jacobian.checked.solve? ((m.residual.map number).map fun r => -r) = _
    rw [opposite, square.jacobian.solve?_checked nonneg]
    rfl
  have scale : m.checked.scale = m.scale.map number := rfl
  unfold dogleg
  rw [newton]
  cases found : m.newtonStep? with
  | none => exact square.bentStep_checked units positive none fun _ none => (nomatch none)
  | some p =>
    dsimp only [Option.map_some]
    rw [scale, stretch_number, norm_number]
    simp only [number_le]
    split_ifs with inside
    · rfl
    · refine square.bentStep_checked units positive (some (stretch m.scale p)) ?_
      rintro _ ⟨⟩
      exact ⟨units.length_stretch_eq (square.length_newtonStep found), not_le.mp inside⟩

/-- **The dogleg step stays in the trust region.** It has an entry for each unknown and is no longer
than the radius. Between the lowest point against the gradient and the solution of the model it ends
on the boundary, at the place that is computed, strictly between zero and one. No branch uses a
quotient by zero. -/
theorem IsSquare.dogleg_stays_inside (square : m.IsSquare n) (units : Units m.scale n)
    (positive : 0 < radius) :
    (m.dogleg radius).length = n ∧ scaledNorm m.scale (m.dogleg radius) ≤ radius ∧
    (∀ p, m.newtonStep? = some p → radius < scaledNorm m.scale p → norm m.gradient ≠ 0 →
      m.steepestDistance < radius →
      let near := descend m.gradient m.steepestDistance
      let far := stretch m.scale p
      let place := (crossingQuadratic radius near far).place
      m.dogleg radius = shrink m.scale (near.zipWith (fun s v => s + place * v)
        (far.zipWith (fun z s => z - s) near)) ∧
      0 < place ∧ place < 1 ∧ scaledNorm m.scale (m.dogleg radius) = radius) ∧
    (0 ≤ (epsilon : F) → m.checked.dogleg (number radius) = (m.dogleg radius).map number) := by
  exact ⟨square.length_dogleg radius, square.scaledNorm_dogleg_le units positive,
    fun p found outside slope before => square.dogleg_interpolates units found outside slope before,
    fun nonneg => square.dogleg_checked units nonneg positive⟩

/-- The equations `x + 3 = 0` and `10 y / 3 + 6 / 5 = 0`. -/
noncomputable def unevenSlopes : LinearModel ℝ :=
  { residual := [3, 6 / 5], jacobian := [[1, 0], [0, 10 / 3]], scale := [1, 1] }

/-- With the radius one, the step ends between the lowest point and the solution. -/
theorem dogleg_unevenSlopes : unevenSlopes.IsSquare 2 ∧ Units unevenSlopes.scale 2 ∧
    (0 : ℝ) < 1 ∧ unevenSlopes.steepestDistance = 1125 / 1681 ∧
    unevenSlopes.newtonStep? = some [-3, -9 / 25] ∧
    scaledNorm unevenSlopes.scale (unevenSlopes.dogleg 1) = 1 := by
  have square : unevenSlopes.IsSquare 2 := ⟨⟨rfl, by simp [unevenSlopes]⟩, rfl⟩
  have units : Units unevenSlopes.scale 2 := ⟨rfl, by simp [unevenSlopes]⟩
  have gradient : unevenSlopes.gradient = [3, 4] := by
    norm_num [LinearModel.gradient, unevenSlopes, shrink, Rows.applyTranspose, addMultiple,
      List.replicate]
  have slope : norm ([3, 4] : List ℝ) = 5 := norm_eq (by norm_num) (by norm_num [squares])
  have rise : norm ([3, 40 / 3] : List ℝ) = 41 / 3 :=
    norm_eq (by norm_num) (by norm_num [squares])
  have along : unevenSlopes.jacobian.apply (shrink unevenSlopes.scale [3, 4]) = [3, 40 / 3] := by
    norm_num [unevenSlopes, shrink, Rows.apply, dot]
  have distance : unevenSlopes.steepestDistance = 1125 / 1681 := by
    unfold steepestDistance
    rw [gradient, along, slope, rise]
    norm_num
  have newton : unevenSlopes.newtonStep? = some [-3, -9 / 25] := by
    have finite (c : ℝ) : isFinite c = true := rfl
    have unrounded : (epsilon : ℝ) = 0 := rfl
    norm_num [newtonStep?, unevenSlopes, Rows.solve?, Rows.factor?, largest, finite, unrounded,
      Arith.abs_eq, eliminateColumns, choosePivot, largerHead?, PartialRow.head,
      PartialRow.toFactored, PartialRow.eliminate, Factors.solve, Factors.forward,
      Factors.backward, Factors.subtractProducts]
  have outside : 1 < scaledNorm unevenSlopes.scale [-3, -9 / 25] := by
    have longer : (1 : ℝ) * 1 < squares [-3, -9 / 25] := by norm_num [squares]
    have same : stretch unevenSlopes.scale [-3, -9 / 25] = [-3, -9 / 25] := by
      simp [stretch, unevenSlopes]
    rw [← norm_mul_self] at longer
    rw [scaledNorm, same]
    exact lt_of_mul_self_lt_mul_self₀ (norm_nonneg _) longer
  obtain ⟨-, -, bends, -⟩ := square.dogleg_stays_inside units one_pos
  refine ⟨square, units, one_pos, distance, newton, ?_⟩
  refine (bends _ newton outside ?_ ?_).2.2.2
  · rw [gradient, slope]
    norm_num
  · rw [distance]
    norm_num

end LinearModel

end ImplicitDiff
