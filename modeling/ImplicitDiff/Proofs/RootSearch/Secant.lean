import Mathlib.Tactic
import ImplicitDiff.Proofs.RootSearch.Linear
import ImplicitDiff.Proofs.RootSearch.Scales

/-! # What a correction learns

The matrix of a search is corrected by the mismatch of a trial, in the direction of the step as it
is measured in scaled variables. So the corrected matrix makes of the step what the residual really
changed by, whether the trial point was kept or not, and of every step at a right angle what it made
of it before.
-/

namespace ImplicitDiff

open Arith
open scoped Matrix

variable {F : Type}

section Products

variable [ExactField F] {u v w q weights : List F} {a : Rows F}

private theorem dot_addMultiple (same : u.length = v.length) (c : F) (q : List F) :
    dot (addMultiple c u v) q = dot u q + c * dot v q := by
  have row : addMultiple c u v = u.zipWith (fun s r => s - -c * r) v := by
    rw [addMultiple_eq_zipWith c same]
    congr 1
    funext s r
    ring
  rw [row, dot_sub_mul same, neg_mul, sub_neg_eq_add]

/-- What a matrix makes of a vector, after each row got its multiple of `w`. -/
theorem RootSearch.apply_addOuter (wide : ∀ row ∈ a, row.length = w.length)
    (same : a.length = weights.length) (q : List F) :
    (addOuter w a weights).apply q =
      (a.apply q).zipWith (fun y c => y + c * dot w q) weights := by
  induction a generalizing weights with
  | nil => rfl
  | cons row a ih =>
    obtain ⟨c, weights, rfl⟩ := List.exists_cons_of_length_eq_add_one same.symm
    obtain ⟨first, rest⟩ := List.forall_mem_cons.mp wide
    have below := ih rest (Nat.succ.inj same)
    rw [Rows.apply] at below ⊢
    rw [addOuter, List.map_cons, dot_addMultiple first, below]
    rfl

end Products

namespace RootSearch

variable [ExactOrderedField F] {n : Nat}

/-- The direction of a correction is that of the step in scaled variables, in the length that makes
its product with the step one. -/
theorem dot_direction {scale step q : List F} (units : scale.length = n) (long : step.length = n)
    (length : q.length = n) (size : F) :
    dot (scale.zipWith (fun d p => d * (d * p / size) / size) step) q =
      dot (stretch scale step) (stretch scale q) / (size * size) := by
  have wide : (scale.zipWith (fun d p => d * (d * p / size) / size) step).length = n :=
    length_zipWith_eq units long
  have stretched : (stretch scale step).length = n := length_zipWith_eq long units
  rw [dot_eq_dotProduct wide, dot_eq_dotProduct stretched, vector_zipWith _ units long,
    vector_stretch units long, vector_stretch units length, dotProduct, dotProduct,
    Finset.sum_div]
  refine Finset.sum_congr rfl fun i _ => ?_
  ring

variable {s : State F} {t : Trial F} {r : Assessment F} {residual : List F}

theorem State.Sized.length_mismatch (sized : s.Sized n)
    (fits : residual.length = s.point.length) : (s.assess s.trial residual).mismatch.length = n :=
  length_zipWith_eq (fits.trans sized.point)
    (length_zipWith_eq (sized.model.jacobian.length_apply s.trial.step) sized.residual)

/-- The mismatch is what the change of the residual differs by from what the matrix makes of the
step. -/
theorem State.Sized.add_mismatch (sized : s.Sized n) (fits : residual.length = s.point.length) :
    (s.jacobian.apply s.trial.step).zipWith (fun y c => y + c)
        (s.assess s.trial residual).mismatch =
      residual.zipWith (fun a r => a - r) s.residual := by
  have rows := sized.model.jacobian.length_apply s.trial.step
  have after := fits.trans sized.point
  change (s.jacobian.apply s.trial.step).zipWith (fun y c => y + c)
    (residual.zipWith (fun a m => a - m)
      ((s.jacobian.apply s.trial.step).zipWith (fun a r => a + r) s.residual)) = _
  apply List.ext_getElem
  · simp [rows, sized.residual, after]
  · intro i _ _
    simp only [List.getElem_zipWith]
    ring

variable [ExactRoots F]

/-- What the corrected matrix makes of a vector. -/
theorem State.apply_correct (square : s.IsSquare n) (long : t.step.length = n)
    (mismatch : r.mismatch.length = n) (moved : 0 < t.size) {q : List F} (length : q.length = n) :
    (s.correct t r).jacobian.apply q = (s.jacobian.apply q).zipWith
      (fun y c => y + c * (dot (stretch s.scale t.step) (stretch s.scale q) / (t.size * t.size)))
      r.mismatch := by
  have direction : (s.scale.zipWith (fun d p => d * (d * p / t.size) / t.size) t.step).length = n :=
    length_zipWith_eq square.scale long
  unfold State.correct
  rw [if_pos ⟨ExactRoots.isFinite_eq _, moved⟩]
  dsimp only
  rw [apply_addOuter (fun row member => (square.jacobian.row member).trans direction.symm)
    (square.jacobian.length.trans mismatch.symm), dot_direction square.scale long length]

/-- A trial changes neither the matrix nor the scales before the correction. -/
theorem State.Sized.apply_correct (sized : s.Sized n) (fits : residual.length = s.point.length)
    (moved : 0 < s.trial.size) {q : List F} (length : q.length = n) :
    ((s.tried residual).correct s.trial (s.assess s.trial residual)).jacobian.apply q =
      (s.jacobian.apply q).zipWith
        (fun y c => y + c * (dot (stretch s.scale s.trial.step) (stretch s.scale q) /
          (s.trial.size * s.trial.size))) (s.assess s.trial residual).mismatch := by
  have next := State.apply_correct (sized.tried fits).model (sized.model.length_dogleg s.radius)
    (sized.length_mismatch fits) moved length
  rwa [State.tried, State.jacobian_advance, State.scale_advance] at next

/-- **A correction explains the trial by a least change**, whatever the problem answers, as long as
it gives square matrices. The corrected matrix makes of the step the change of the residual from
what the problem said at the point to what it says at the trial point, whether that is kept or not,
and of a vector at a right angle to the step, in scaled variables, what it made of it before. -/
theorem correction_explains_trial {p : Problem F} {settings : Settings F} {x : List F}
    {given new : List (Rows F)} {s t : State F} {journal before after : Journal F}
    (visited : Visited settings p x journal given s before)
    (square : ∀ jacobian ∈ given, jacobian.IsSquare x.length)
    (moves : Moves settings p s before new t after) (unrefreshed : t.jacobians = s.jacobians)
    (moved : 0 < scaledNorm s.scale s.trial.step) :
    (∃ first second, (p.residual s.point).run.run first = (.ok s.residual, second)) ∧
    ∃ residual middle,
      (p.residual (s.point.zipWith (fun x p => x + p) s.trial.step)).run.run before =
        (.ok residual, middle) ∧
      t.jacobian.apply s.trial.step = residual.zipWith (fun a r => a - r) s.residual ∧
      ∀ q, q.length = x.length → dot (stretch s.scale s.trial.step) (stretch s.scale q) = 0 →
        t.jacobian.apply q = s.jacobian.apply q := by
  have sized := visited.sized square
  refine ⟨visited.obtained.2, ?_⟩
  cases moves with
  | refresh _ _ _ _ _ _ =>
    have more : (s.tried _).jacobians + 1 = s.jacobians := unrefreshed
    rw [State.tried, State.jacobians_advance] at more
    omega
  | correct tries _ _ =>
    obtain ⟨middle, ran, fits, -⟩ := tries
    refine ⟨_, middle, ran, ?_, fun q length orthogonal => ?_⟩
    · have whole : dot (stretch s.scale s.trial.step) (stretch s.scale s.trial.step) =
          s.trial.size * s.trial.size := by
        rw [dot_eq_dotProduct rfl, ← squares_eq_dotProduct rfl, ← norm_mul_self]
        rfl
      have size : s.trial.size * s.trial.size ≠ 0 := (mul_pos moved moved).ne'
      have long : s.trial.step.length = x.length := sized.model.length_dogleg s.radius
      rw [sized.apply_correct fits moved long, whole, div_self size]
      simp only [mul_one]
      exact sized.add_mismatch fits
    · have rows := sized.model.jacobian.length_apply q
      rw [sized.apply_correct fits moved length, orthogonal, zero_div]
      apply List.ext_getElem
      · simp [rows, sized.length_mismatch fits]
      · intro i _ _
        simp

/-- A problem whose residual is `first` when nothing was asked before, and `later` from then on. Its
matrix swaps two unknowns. -/
def drifting (first later : List ℝ) : Problem ℝ where
  residual x := do
    note (.evaluated x)
    return if (← get).size = 1 then first else later
  jacobian x := do
    note (.linearized x)
    return swap

section Drifting

variable {s : State ℝ}

private theorem norm_steep : norm [-3, (-4 : ℝ)] = 5 := norm_pair (by norm_num) (by norm_num)

private theorem norm_step : norm [4, (3 : ℝ)] = 5 := norm_pair (by norm_num) (by norm_num)

private theorem start_swap : State.start ⟨1e-10, 1000, 100⟩ [0, 0] [-3, -4] swap [1, 1] =
    { residual := [-3, -4], jacobian := swap, scale := [1, 1], point := [0, 0], norm := 5
      pointNorm := 0, radius := 100 } := by
  have zero : norm [0, (0 : ℝ)] = 0 := norm_pair le_rfl (by norm_num)
  norm_num [State.start, scaledNorm, stretch, norm_steep, zero]

private theorem trial_swap
    (start : s = { residual := [-3, -4], jacobian := swap, scale := [1, 1], point := [0, 0]
                   norm := 5, pointNorm := 0, radius := 100 }) :
    s.trial = { step := [4, 3], size := 5, point := [4, 3] } := by
  have newton : s.newtonStep? = some [4, 3] := by
    rw [start]
    change swap.solve? [- -3, - -4] = _
    rw [solve?_swap, neg_neg, neg_neg]
  have size : norm (stretch s.scale [4, 3]) = 5 := by
    rw [start]
    norm_num [stretch, norm_step]
  have step : s.dogleg s.radius = [4, 3] := by
    rw [LinearModel.dogleg, newton]
    refine if_pos (size.trans_le ?_)
    rw [start]
    norm_num
  rw [State.trial, step, scaledNorm, size, start]
  norm_num

/-- The trial is kept, and the search goes on without a new matrix. -/
private theorem verdict_swap
    (start : s = { residual := [-3, -4], jacobian := swap, scale := [1, 1], point := [0, 0]
                   norm := 5, pointNorm := 0, radius := 100 }) :
    (s.tried [0, 1]).verdict ⟨1e-10, 1000, 100⟩ s.trial.size = none ∧
      (s.tried [0, 1]).failures = 0 := by
  have unrounded : (epsilon : ℝ) = 0 := rfl
  have after : norm [0, (1 : ℝ)] = 1 := norm_pair (by norm_num) (by norm_num)
  have promised : norm [0, (0 : ℝ)] = 0 := norm_pair le_rfl (by norm_num)
  rw [State.tried, trial_swap start, start]
  norm_num [State.assess, State.advance, State.adjust, State.keep, State.countSlow,
    State.evaluated, State.nextRadius, State.verdict, Assessment.isFailure, Assessment.isAccepted,
    ExactRoots.decimal, Rows.apply, relativeReduction_eq, after, promised, norm_step, scaledNorm,
    stretch, swap, unrounded, Arith.abs_eq]

/-- A search from zero tries the step `[4, 3]` and learns what the residual changes by, and nothing
about `[3, -4]`. -/
theorem correction_explains_trial_drifting :
    ∃ (s t : State ℝ) (given : List (Rows ℝ)) (before after : Journal ℝ),
      Visited ⟨1e-10, 1000, 100⟩ (drifting [-3, -4] [0, 1]) [0, 0] #[] given s before ∧
      (∀ jacobian ∈ given, jacobian.IsSquare 2) ∧
      Moves ⟨1e-10, 1000, 100⟩ (drifting [-3, -4] [0, 1]) s before [] t after ∧
      t.jacobians = s.jacobians ∧ 0 < scaledNorm s.scale s.trial.step ∧ s.trial.step = [4, 3] ∧
      t.jacobian.apply [4, 3] = [3, 5] ∧ t.jacobian.apply [3, -4] = [-4, 3] := by
  let settings : Settings ℝ := ⟨1e-10, 1000, 100⟩
  let s : State ℝ := .start settings [0, 0] [-3, -4] swap [1, 1]
  have start : s = _ := start_swap
  have trial := trial_swap start
  have verdict := verdict_swap start
  have nonzero : (norm [-3, (-4 : ℝ)] == 0) = false := by
    norm_num [norm_steep]
  have visited : Visited settings (drifting [-3, -4] [0, 1]) [0, 0] #[] _ s
      #[.evaluated [0, 0], .linearized [0, 0]] :=
    .start rfl rfl rfl nonzero rfl rfl columnNorms_swap
  have fits : ([0, 1] : List ℝ).length = s.point.length := by rw [start]; rfl
  have tries : Tries (drifting [-3, -4] [0, 1]) s #[.evaluated [0, 0], .linearized [0, 0]]
      [0, 1] _ := ⟨_, rfl, fits, rfl⟩
  have moves := Moves.correct tries verdict.1 (by rw [verdict.2]; decide)
  have squares : ∀ jacobian ∈ [swap], jacobian.IsSquare 2 :=
    List.forall_mem_singleton.mpr isSquare_swap
  have unrefreshed : ((s.tried [0, 1]).correct s.trial (s.assess s.trial [0, 1])).jacobians =
      s.jacobians := (State.jacobians_correct ..).trans (State.jacobians_advance ..)
  have moved : 0 < scaledNorm s.scale s.trial.step := by
    change 0 < s.trial.size
    rw [trial]
    norm_num
  obtain ⟨-, residual, middle, ran, learnt, kept⟩ :=
    correction_explains_trial visited squares moves unrefreshed moved
  cases ran
  have step : s.trial.step = [4, 3] := congrArg Trial.step trial
  have orthogonal : dot (stretch s.scale s.trial.step) (stretch s.scale [3, -4]) = 0 := by
    rw [step, start]
    norm_num [stretch]
  refine ⟨s, _, _, _, _, visited, squares, moves, unrefreshed, moved, step, ?_, ?_⟩
  · rw [← step]
    refine learnt.trans ?_
    rw [start]
    norm_num
  · refine (kept [3, -4] rfl orthogonal).trans ?_
    rw [start]
    norm_num [Rows.apply, swap]

end Drifting

end RootSearch

end ImplicitDiff
