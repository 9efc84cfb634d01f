import Mathlib.Tactic
import ImplicitDiff.Proofs.RootSearch.Report
import ImplicitDiff.Proofs.RootSearch.Path

/-! # Linear equations

For linear equations the linear model is exact. So every trial does what the model promised: it
makes the residual shorter, it is kept, there is nothing to learn for the matrix, and the radius
becomes twice the step. A trial that can reach the solution leads there, and any other goes to the
radius and no further away from the solution.
-/

namespace ImplicitDiff

open Arith
open scoped Matrix

variable {F : Type} [ExactOrderedField F] {n : Nat} {a : Rows F} {b x p : List F}

/-- The residual of linear equations: what the matrix makes of a point, less the right-hand side. -/
def linearResidual (a : Rows F) (b x : List F) : List F :=
  (a.apply x).zipWith (fun y c => y - c) b

theorem length_linearResidual (square : a.IsSquare n) (length : b.length = n) (x : List F) :
    (linearResidual a b x).length = n := length_zipWith_eq (square.length_apply x) length

theorem vector_linearResidual (square : a.IsSquare n) (length : b.length = n) (x : List F) :
    vector (linearResidual a b x) n = a.matrix n n *ᵥ vector x n - vector b n := by
  rw [linearResidual, vector_zipWith _ (square.length_apply x) length,
    vector_apply_rows square]
  rfl

/-- A step changes the residual by what the matrix makes of the step. -/
theorem linearResidual_add (square : a.IsSquare n) (length : b.length = n) (long : x.length = n)
    (step : p.length = n) :
    linearResidual a b (x.zipWith (fun x p => x + p) p) =
      (a.apply p).zipWith (fun a r => a + r) (linearResidual a b x) := by
  have rows : (a.apply p).length = n := square.length_apply p
  have residual := length_linearResidual square length x
  refine vector_injective (length_linearResidual square length _) (by simp [rows, residual]) ?_
  rw [vector_linearResidual square length, vector_zipWith _ long step,
    vector_zipWith _ rows residual, vector_linearResidual square length, vector_apply_rows square]
  change _ *ᵥ (vector x n + vector p n) - _ = _ *ᵥ vector p n + (_ - _)
  rw [Matrix.mulVec_add]
  abel

/-- The residual is zero at the solutions. -/
theorem norm_linearResidual_eq_zero_iff [ExactRoots F] (square : a.IsSquare n)
    (length : b.length = n) (x : List F) : norm (linearResidual a b x) = 0 ↔ a.apply x = b := by
  have rows : (a.apply x).length = n := square.length_apply x
  rw [norm_eq_magnitude (length_linearResidual square length x), magnitude_eq_zero_iff,
    vector_linearResidual square length, sub_eq_zero, ← vector_apply_rows square]
  exact ⟨vector_injective rows length, congrArg (vector · n)⟩

/-- Linear equations with the solution that elimination finds, for every right-hand side. -/
structure Solution (a : Rows F) (b : List F) (n : Nat) (root : List F) : Prop where
  square : a.IsSquare n
  length : b.length = n
  long : root.length = n
  solves : a.apply root = b
  found {c x : List F} : c.length = n → x.length = n → a.apply x = c → a.solve? c = some x

namespace Solution

variable {root : List F}

/-- A matrix with factors has a solution for every right-hand side. -/
theorem of_factors (nonneg : 0 ≤ (epsilon : F)) (square : a.IsSquare n) {factors : Factors F}
    (factored : a.factor? = some factors) (length : b.length = n) :
    Solution a b n (factors.solve b) := by
  have long : (factors.solve b).length = n := by
    rw [Factors.length_solve, Rows.factor?_length factored, square.length]
  refine ⟨square, length, long, (square.apply_eq_iff nonneg factored length long).mpr rfl, ?_⟩
  intro c x right left solves
  rw [Rows.solve?, factored, (square.apply_eq_iff nonneg factored right left).mp solves]
  rfl

theorem unique (solution : Solution a b n root) {x : List F} (length : x.length = n)
    (solves : a.apply x = b) : x = root :=
  Option.some.inj ((solution.found solution.length length solves).symm.trans
    (solution.found solution.length solution.long solution.solves))

end Solution

namespace RootSearch

/-- The answers of linear equations. -/
abbrev linearAnswers (a : Rows F) (b : List F) (n : Nat) :=
  Answers.ofFunctions (linearResidual a b) (fun _ => a) n

variable {s : State F} {t : Trial F}

/-! ## States of a search for a solution -/

/-- A state of a search for the solution of linear equations. Its matrix is that of the equations
and its lengths are up to date. -/
structure Linear (a : Rows F) (b : List F) (n : Nat) (s : State F) : Prop where
  shaped : Shaped (linearAnswers a b n) s
  matrix : s.jacobian = a
  units : Units s.scale n
  norm : s.norm = ImplicitDiff.norm s.residual
  pointNorm : s.pointNorm = scaledNorm s.scale s.point
  unsolved : s.norm ≠ 0
  radius : 0 < s.radius

/-- The distance of a point, in scaled variables. -/
def State.distance (s : State F) (root : List F) : F :=
  scaledNorm s.scale (root.zipWith (fun r x => r - x) s.point)

namespace Linear

variable {root : List F}

theorem residual_length (linear : Linear a b n s) : s.residual.length = n :=
  linear.shaped.residual ▸ linear.shaped.fits

/-- The residual at a trial point is the one that the model promised. -/
theorem model_eq (linear : Linear a b n s) (square : a.IsSquare n) (length : b.length = n) :
    s.residualAfter s.trial.step = linearResidual a b s.trial.point := by
  have step : s.trial.step.length = n := linear.shaped.model.length_dogleg s.radius
  rw [LinearModel.residualAfter, linear.matrix, linear.shaped.residual]
  exact (linearResidual_add square length linear.shaped.point step).symm

theorem length_way (linear : Linear a b n s) (solution : Solution a b n root) :
    (root.zipWith (fun r x => r - x) s.point).length = n :=
  length_zipWith_eq solution.long linear.shaped.point

/-- The way to the solution solves the model. -/
theorem apply_way (linear : Linear a b n s) (solution : Solution a b n root) :
    s.jacobian.apply (root.zipWith (fun r x => r - x) s.point) = s.residual.map fun r => -r := by
  have value : s.residual = linearResidual a b s.point := linear.shaped.residual
  rw [linear.matrix]
  refine vector_injective (solution.square.length_apply _)
    ((List.length_map _).trans linear.residual_length) ?_
  rw [vector_apply_rows solution.square, vector_zipWith _ solution.long linear.shaped.point,
    vector_map _ linear.residual_length, value,
    vector_linearResidual solution.square solution.length, ← solution.solves,
    vector_apply_rows solution.square]
  change _ *ᵥ (vector root n - vector s.point n) = -(_ - _)
  rw [Matrix.mulVec_sub, neg_sub]

/-- So it is the step that solves the model. -/
theorem newtonStep_eq (linear : Linear a b n s) (solution : Solution a b n root) :
    s.newtonStep? = some (root.zipWith (fun r x => r - x) s.point) := by
  have solves := linear.apply_way solution
  rw [linear.matrix] at solves
  rw [LinearModel.newtonStep?, linear.matrix]
  exact solution.found ((List.length_map _).trans linear.residual_length)
    (linear.length_way solution) solves

/-- A trial that can reach the solution takes the whole way to it. -/
theorem step_inside (linear : Linear a b n s) (solution : Solution a b n root)
    (near : s.distance root ≤ s.radius) :
    s.trial.step = root.zipWith (fun r x => r - x) s.point := by
  change s.dogleg s.radius = _
  rw [LinearModel.dogleg, linear.newtonStep_eq solution]
  exact if_pos near

theorem trial_inside (linear : Linear a b n s) (solution : Solution a b n root)
    (near : s.distance root ≤ s.radius) : s.trial.point = root := by
  change s.point.zipWith (fun x p => x + p) s.trial.step = root
  rw [linear.step_inside solution near]
  apply List.ext_getElem
  · simp [linear.shaped.point, solution.long]
  · intro i _ _
    simp

end Linear

/-! ## Trials that do what the model promised -/

theorem relativeReduction_eq (before after : F) :
    relativeReduction before after = 1 - after / before * (after / before) := by
  rw [relativeReduction, powInt_eq, zpow_two]

theorem relativeReduction_pos {before after : F} (nonneg : 0 ≤ after) (shorter : after < before) :
    0 < relativeReduction before after := by
  have part : after / before < 1 := (div_lt_one (nonneg.trans_lt shorter)).mpr shorter
  have positive : 0 ≤ after / before := div_nonneg nonneg (nonneg.trans shorter.le)
  rw [relativeReduction_eq]
  exact sub_pos.mpr (mul_lt_one_of_nonneg_of_lt_one_left positive part part.le)

private theorem addOuter_zero (w : List F) (a : Rows F) {weights : List F}
    (zero : ∀ c ∈ weights, c = 0) : addOuter w a weights = a := by
  have none (row : List F) (w : List F) : addMultiple 0 row w = row := by
    induction row generalizing w with
    | nil => rfl
    | cons x row ih =>
      cases w with
      | nil => rfl
      | cons y w => rw [addMultiple, ih, mul_zero, add_zero]
  induction a generalizing weights with
  | nil => rfl
  | cons row a ih =>
    cases weights with
    | nil => rfl
    | cons c weights =>
      obtain ⟨rfl, rest⟩ := List.forall_mem_cons.mp zero
      rw [addOuter, none, ih rest]

/-- After a trial that did what the model promised, there is nothing to learn. -/
theorem State.correct_of_exact {r : Assessment F} (agrees : ∀ c ∈ r.mismatch, c = 0) :
    s.correct t r = { s with fresh := false } := by
  unfold State.correct
  split_ifs
  · dsimp only
    rw [addOuter_zero _ _ agrees]
  · rfl

/-- A search that goes on has not found a root. -/
theorem State.norm_ne_zero_of_verdict {size : F} {settings : Settings F}
    (goesOn : s.verdict settings size = none) : s.norm ≠ 0 := by
  intro zero
  unfold State.verdict at goesOn
  rw [if_pos (beq_iff_eq.mpr zero)] at goesOn
  cases goesOn

variable [ExactRoots F]

/-- A trial that did what the model promised is kept. -/
theorem Assessment.isAccepted_of_exact {r : Assessment F} (agrees : r.ratio = 1) :
    r.isAccepted = true := by
  rw [isAccepted, agrees, ExactRoots.decimal, decide_eq_true_iff]
  norm_num

namespace State

/-- The residual that the model promised, if it is shorter. -/
theorem assess_of_exact {residual : List F}
    (agrees : s.residualAfter t.step = residual)
    (shorter : ImplicitDiff.norm residual < s.norm) :
    s.assess t residual =
      { residual, norm := ImplicitDiff.norm residual
        reduction := relativeReduction s.norm (ImplicitDiff.norm residual), ratio := 1
        mismatch := residual.zipWith (fun a m => a - m) residual } := by
  have positive := relativeReduction_pos (norm_nonneg residual) shorter
  rw [LinearModel.residualAfter] at agrees
  unfold assess
  dsimp only
  rw [agrees, if_pos shorter, if_pos shorter, if_pos positive, div_self positive.ne']

/-- The state after a trial that did what the model promised. -/
theorem advance_of_exact {r : Assessment F} (agrees : r.ratio = 1) :
    s.advance t r =
      { s with
        point := t.point, residual := r.residual, norm := r.norm
        pointNorm := scaledNorm s.scale t.point
        radius := 2 * t.size, untried := false, successes := s.successes + 1, failures := 0
        slow := if 0.001 ≤ r.reduction then 0 else s.slow + 1
        slowFresh :=
          if 0.1 ≤ r.reduction then 0 else if s.fresh then s.slowFresh + 1 else s.slowFresh
        iterations := s.iterations + 1, evaluations := s.evaluations + 1 } := by
  have fine : r.isFailure = false := by
    rw [Assessment.isFailure, agrees, ExactRoots.decimal, decide_eq_false_iff_not]
    norm_num
  have kept := Assessment.isAccepted_of_exact agrees
  have radius : s.nextRadius t r = 2 * t.size := by
    unfold nextRadius
    rw [fine, agrees, sub_self, Arith.abs_eq, abs_zero, ExactRoots.decimal, ExactRoots.decimal]
    rw [if_neg Bool.false_ne_true, if_pos (by norm_num)]
    norm_num
    ring
  unfold advance keep
  rw [if_pos kept, adjust, radius, fine]
  rfl

end State

namespace Linear

variable {root : List F}

/-- A trial that cannot reach the solution yet follows the path to the radius. -/
theorem trial_onPath (linear : Linear a b n s) (solution : Solution a b n root)
    (far : s.radius < s.distance root) :
    s.trial.size = s.radius ∧ OnPath (s.scaledMatrix n) (vector s.residual n)
      (vector (stretch s.scale (root.zipWith (fun r x => r - x) s.point)) n)
      (vector (stretch s.scale s.trial.step) n) := by
  have moves : ImplicitDiff.norm s.residual ≠ 0 := linear.norm ▸ linear.unsolved
  exact linear.shaped.model.dogleg_outside linear.units (linear.newtonStep_eq solution)
    linear.residual_length (linear.apply_way solution) moves linear.radius far

/-- Then the square of the residual shrinks at least by the share of the distance that is covered.
-/
theorem norm_trial_le (linear : Linear a b n s) (solution : Solution a b n root)
    (far : s.radius < s.distance root) :
    ImplicitDiff.norm (linearResidual a b s.trial.point) *
      ImplicitDiff.norm (linearResidual a b s.trial.point) * s.distance root ≤
        s.norm * s.norm * (s.distance root - s.radius) := by
  obtain ⟨reach, path⟩ := linear.trial_onPath solution far
  have model := linear.shaped.model
  have fits := linear.residual_length
  have way := linear.length_way solution
  have step : s.trial.step.length = n := model.length_dogleg s.radius
  have entries : vector (linearResidual a b s.trial.point) n = vector s.residual n +
      s.scaledMatrix n *ᵥ vector (stretch s.scale s.trial.step) n := by
    rw [← linear.model_eq solution.square solution.length,
      model.vector_residualAfter linear.units fits step]
  have shrunk := path.residual_le
    (model.scaledMatrix_mulVec linear.units way fits (linear.apply_way solution))
  rw [norm_mul_self, linear.norm, norm_mul_self, squares_eq_dotProduct fits,
    squares_eq_dotProduct (length_linearResidual solution.square solution.length _), entries]
  rw [← norm_eq_magnitude (linear.units.length_stretch_eq way),
    ← norm_eq_magnitude (linear.units.length_stretch_eq step)] at shrunk
  exact shrunk.trans_eq (congrArg (fun size => _ * (s.distance root - size)) reach)

/-- And the solution gets no further away. -/
theorem distance_trial_le (linear : Linear a b n s) (solution : Solution a b n root)
    (far : s.radius < s.distance root) :
    scaledNorm s.scale (root.zipWith (fun r x => r - x) s.trial.point) ≤ s.distance root := by
  obtain ⟨-, path⟩ := linear.trial_onPath solution far
  have model := linear.shaped.model
  have way := linear.length_way solution
  have step : s.trial.step.length = n := model.length_dogleg s.radius
  have rest : (root.zipWith (fun r x => r - x) s.trial.point).length = n :=
    length_zipWith_eq solution.long linear.shaped.length_trial
  have entries : vector (stretch s.scale (root.zipWith (fun r x => r - x) s.trial.point)) n =
      vector (stretch s.scale (root.zipWith (fun r x => r - x) s.point)) n -
        vector (stretch s.scale s.trial.step) n := by
    have sum : vector s.trial.point n = fun i => vector s.point n i + vector s.trial.step n i :=
      vector_zipWith _ linear.shaped.point step
    rw [vector_stretch model.scale rest, vector_stretch model.scale way,
      vector_stretch model.scale step, vector_zipWith _ solution.long linear.shaped.length_trial,
      vector_zipWith _ solution.long linear.shaped.point, sum]
    funext i
    simp only [Pi.sub_apply]
    ring
  have away := path.away_le (model.scaledMatrix_mulVec linear.units way linear.residual_length
    (linear.apply_way solution))
  rw [← entries, ← norm_eq_magnitude (linear.units.length_stretch_eq way),
    ← norm_eq_magnitude (linear.units.length_stretch_eq rest)] at away
  exact away

/-- Every trial makes the residual shorter. -/
theorem norm_trial_lt (linear : Linear a b n s) (solution : Solution a b n root) :
    ImplicitDiff.norm (linearResidual a b s.trial.point) < s.norm := by
  have positive : 0 < s.norm :=
    (linear.norm ▸ norm_nonneg s.residual).lt_of_ne' linear.unsolved
  rcases le_or_gt (s.distance root) s.radius with near | far
  · rw [linear.trial_inside solution near,
      (norm_linearResidual_eq_zero_iff solution.square solution.length root).mpr solution.solves]
    exact positive
  · have shrunk := linear.norm_trial_le solution far
    have covered := mul_pos (mul_pos positive positive) linear.radius
    have distance := linear.radius.trans far
    refine lt_of_mul_self_lt_mul_self₀ positive.le (lt_of_mul_lt_mul_right ?_ distance.le)
    linarith

/-- Every trial does what the model promised. -/
theorem assessed_eq (linear : Linear a b n s) (solution : Solution a b n root) :
    (linearAnswers a b n).assessed s =
      let residual := linearResidual a b s.trial.point
      { residual, norm := ImplicitDiff.norm residual
        reduction := relativeReduction s.norm (ImplicitDiff.norm residual), ratio := 1
        mismatch := residual.zipWith (fun a m => a - m) residual } :=
  State.assess_of_exact (linear.model_eq solution.square solution.length)
    (linear.norm_trial_lt solution)

/-- The state after a trial. -/
theorem after_eq (linear : Linear a b n s) (solution : Solution a b n root) :
    (linearAnswers a b n).after s =
      let residual := linearResidual a b s.trial.point
      let reduction := relativeReduction s.norm (ImplicitDiff.norm residual)
      { s with
        point := s.trial.point, residual, norm := ImplicitDiff.norm residual
        pointNorm := scaledNorm s.scale s.trial.point
        radius := 2 * s.trial.size, untried := false, successes := s.successes + 1, failures := 0
        slow := if 0.001 ≤ reduction then 0 else s.slow + 1
        slowFresh :=
          if 0.1 ≤ reduction then 0 else if s.fresh then s.slowFresh + 1 else s.slowFresh
        iterations := s.iterations + 1, evaluations := s.evaluations + 1 } := by
  rw [Answers.after, linear.assessed_eq solution, State.advance_of_exact rfl]

/-- The correction of the matrix after a trial changes nothing but that the matrix is not fresh. -/
theorem correct_eq (linear : Linear a b n s) (solution : Solution a b n root) :
    ((linearAnswers a b n).after s).correct s.trial ((linearAnswers a b n).assessed s) =
      { (linearAnswers a b n).after s with fresh := false } := by
  refine State.correct_of_exact ?_
  rw [linear.assessed_eq solution]
  dsimp only
  rw [List.zipWith_self, List.forall_mem_map]
  exact fun c _ => sub_self c

/-- A state after a trial, if the search goes on. -/
theorem next (linear : Linear a b n s) (solution : Solution a b n root)
    (unsolved : ImplicitDiff.norm (linearResidual a b s.trial.point) ≠ 0)
    (positive : 0 < s.trial.size) :
    Linear a b n { (linearAnswers a b n).after s with fresh := false } := by
  have fits : ((linearAnswers a b n).value s.trial.point).length = s.point.length :=
    (length_linearResidual solution.square solution.length _).trans linear.shaped.point.symm
  have shaped := (linear.shaped.after fits).correct s.trial ((linearAnswers a b n).assessed s)
  rw [linear.correct_eq solution] at shaped
  rw [linear.after_eq solution] at shaped ⊢
  exact ⟨shaped, linear.matrix, linear.units, rfl, rfl, unsolved, mul_pos two_pos positive⟩

end Linear

end RootSearch

end ImplicitDiff
