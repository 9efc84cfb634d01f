import Mathlib.Tactic
import ImplicitDiff.Proofs.RootSearch.Cauchy
import ImplicitDiff.Proofs.RootSearch.Doubling

/-! # Runs for linear equations

Whatever the tolerance and the budget are, a search for the solution of linear equations keeps every
trial, because every trial does what the model promised. So it never evaluates the matrix again, and
it makes one step for each evaluation of the residual after the first one. If the first radius
reaches the solution, one step is enough.
-/

namespace ImplicitDiff.RootSearch

open Arith

variable {F : Type} [ExactOrderedField F] [ExactRoots F] {n : Nat} {a : Rows F} {b x root : List F}
  {settings : Settings F} {s t : State F} {events : Journal F} {o : Outcome F}

/-- The counts of a search that kept every trial and evaluated the matrix once. -/
structure KeptAll (s : State F) : Prop where
  jacobians : s.jacobians = 1
  evaluations : s.evaluations = s.iterations + 1

namespace Linear

/-- A trial leads away from the point. -/
theorem trial_size_pos (linear : Linear a b n s) (solution : Solution a b n root) :
    0 < s.trial.size := by
  have nonneg : 0 ≤ s.trial.size := norm_nonneg _
  refine nonneg.lt_of_ne' fun zero => ?_
  have model := linear.shaped.model
  have step : s.trial.step.length = n := model.length_dogleg s.radius
  have rows := model.jacobian.length_apply s.trial.step
  have none : ImplicitDiff.norm (s.jacobian.apply s.trial.step) = 0 := by
    change scaledNorm s.scale s.trial.step = 0 at zero
    rw [scaledNorm, norm_eq_magnitude (linear.units.length_stretch_eq step),
      magnitude_eq_zero_iff] at zero
    rw [norm_eq_magnitude rows, magnitude_eq_zero_iff,
      model.vector_apply_stretch linear.units step, zero, Matrix.mulVec_zero]
  have short := linear.norm_le_add solution
  rw [← linear.matrix, none, add_zero] at short
  exact short.not_gt (linear.matrix ▸ linear.norm_trial_lt solution)

/-- Every trial brings the reduction that the model promised. -/
theorem reduction_eq (linear : Linear a b n s) (solution : Solution a b n root) :
    ((linearAnswers a b n).assessed s).reduction = s.promised s.trial := by
  have model : s.residualAfter s.trial.step = linearResidual a b s.trial.point :=
    linear.model_eq solution.square solution.length
  rw [linear.assessed_eq solution, State.promised, model]
  exact (if_pos (linear.norm_trial_lt solution)).symm

theorem isAccepted (linear : Linear a b n s) (solution : Solution a b n root) :
    ((linearAnswers a b n).assessed s).isAccepted = true := by
  rw [linear.assessed_eq solution]
  exact Assessment.isAccepted_of_exact rfl

/-- The search never evaluates the matrix again, because no trial is a failure. -/
theorem failures_after (linear : Linear a b n s) (solution : Solution a b n root) :
    ((linearAnswers a b n).after s).failures = 0 := by
  rw [linear.after_eq solution]

theorem keptAll_after (linear : Linear a b n s) (solution : Solution a b n root)
    (kept : KeptAll s) : KeptAll ((linearAnswers a b n).after s) := by
  rw [linear.after_eq solution]
  exact ⟨kept.jacobians, congrArg (· + 1) kept.evaluations⟩

/-- What an iteration keeps. -/
theorem step (linear : Linear a b n s) (solution : Solution a b n root) (kept : KeptAll s)
    (step : Step (linearAnswers a b n) settings s events t) : Linear a b n t ∧ KeptAll t := by
  cases step with
  | correct goesOn _ =>
    have after := linear.keptAll_after solution kept
    have unsolved : ImplicitDiff.norm (linearResidual a b s.trial.point) ≠ 0 := by
      have open_ := State.norm_ne_zero_of_verdict goesOn.open_
      rwa [linear.after_eq solution] at open_
    rw [linear.correct_eq solution]
    exact ⟨linear.next solution unsolved (linear.trial_size_pos solution),
      after.jacobians, after.evaluations⟩
  | refresh _ failed _ _ =>
    rw [linear.failures_after solution] at failed
    omega

/-- What the last iteration leaves. -/
theorem stop (linear : Linear a b n s) (solution : Solution a b n root) (kept : KeptAll s)
    (stop : Stop (linearAnswers a b n) settings s events o) :
    o.jacobians = 1 ∧ o.evaluations = o.iterations + 1 := by
  cases stop with
  | mismatch unfit =>
    refine absurd ?_ unfit
    exact (length_linearResidual solution.square solution.length _).trans linear.shaped.point.symm
  | verdict _ _ =>
    have after := linear.keptAll_after solution kept
    exact ⟨after.jacobians, after.evaluations⟩
  | nonFinite _ failed _ =>
    rw [linear.failures_after solution] at failed
    omega

theorem trace (linear : Linear a b n s) (solution : Solution a b n root) (kept : KeptAll s)
    (trace : Trace (linearAnswers a b n) settings s events o) :
    o.jacobians = 1 ∧ o.evaluations = o.iterations + 1 := by
  induction trace with
  | stop stop => exact linear.stop solution kept stop
  | step step _ ih =>
    obtain ⟨next, keeps⟩ := linear.step solution kept step
    exact ih next keeps

/-- If the radius reaches the solution, the iteration is the last one. -/
theorem trace_of_near (linear : Linear a b n s) (solution : Solution a b n root)
    (near : s.distance root ≤ s.radius)
    (trace : Trace (linearAnswers a b n) settings s events o) :
    o.termination = .zeroResidual ∧ o.point = root ∧ o.evaluations = s.evaluations + 1 := by
  have answers : (linearAnswers a b n).IsSquare := fun _ _ _ => solution.square
  obtain ⟨_, last, stop, zero, arrived⟩ :=
    linear.stop_of_solved solution (linear.trial_inside solution near) settings
  obtain rfl : o = last :=
    (trace.run_yields linear.shaped answers).unique (stop.run_yields linear.shaped)
  exact ⟨zero, arrived, stop.evaluations.1⟩

/-- Every state of a search for the solution is one of these. -/
theorem of_visited (solution : Solution a b x.length root) (positive : 0 < settings.factor)
    {journal before : Journal F} {given : List (Rows F)} (visited : Visited settings
      (.ofFunctions (fun x => .ok (linearResidual a b x)) fun _ => .ok a) x journal given s before) :
    Linear a b x.length s ∧ KeptAll s := by
  have answers : (linearAnswers a b x.length).IsSquare := fun _ _ _ => solution.square
  induction visited with
  | start ran _ _ nonzero obtained _ measured =>
    cases ((linearAnswers a b x.length).residual_yields rfl _).symm.trans ran
    cases ((linearAnswers a b x.length).jacobian_yields rfl _).symm.trans obtained
    have unsolved : ImplicitDiff.norm (linearResidual a b x) ≠ 0 := beq_eq_false_iff_ne.mp nonzero
    exact ⟨.start solution.square solution.length measured unsolved positive, rfl, rfl⟩
  | step _ moves ih =>
    obtain ⟨⟨_, step⟩, -⟩ := moves.step ih.1.shaped answers
    exact ih.1.step solution ih.2 step

end Linear

/-- **A search is exact on linear equations**, with any tolerance and any budget. In every iteration
the matrix is that of the equations, and the trial brings the reduction that was promised and is
kept. The matrix is evaluated once and the residual once more than steps are made. If the first
radius reaches the only solution, the search ends there after one step. -/
theorem search_linear_exact {start : List F} (square : a.IsSquare start.length)
    (length : b.length = start.length) (factored : a.factor? ≠ none) (nonneg : 0 ≤ (epsilon : F))
    (unsolved : a.apply start ≠ b) (positive : 0 < settings.factor) :
    ∃ root columns events o, (∀ x, x.length = start.length ∧ a.apply x = b ↔ x = root) ∧
      columnNorms a start.length = .ok columns ∧
      Yields (search settings
        (.ofFunctions (fun x => .ok (linearResidual a b x)) fun _ => .ok a) start) events o ∧
      (∀ journal given s before, Visited settings
          (.ofFunctions (fun x => .ok (linearResidual a b x)) fun _ => .ok a) start journal given s
          before →
        s.jacobian = a ∧
        ((linearAnswers a b start.length).assessed s).reduction = s.promised s.trial ∧
        ((linearAnswers a b start.length).assessed s).isAccepted = true) ∧
      o.jacobians = 1 ∧ o.evaluations = o.iterations + 1 ∧
      let first := State.start settings start (linearResidual a b start) a columns
      ∃ step, first.newtonStep? = some step ∧ (scaledNorm first.scale step ≤ first.radius →
        o.termination = .zeroResidual ∧ o.point = root ∧ o.evaluations = 2) := by
  obtain ⟨factors, factored⟩ := Option.ne_none_iff_exists'.mp factored
  have solution := Solution.of_factors nonneg square factored length
  have moves : norm (linearResidual a b start) ≠ 0 := fun zero =>
    unsolved ((norm_linearResidual_eq_zero_iff square length start).mp zero)
  have answers : (linearAnswers a b start.length).IsSquare := fun _ _ _ => square
  obtain ⟨columns, measured⟩ : ∃ columns, columnNorms a start.length = .ok columns :=
    ⟨_, columnNorms_eq square⟩
  have linear : Linear a b start.length
      (.start settings start (linearResidual a b start) a columns) :=
    .start square length measured moves positive
  have kept : KeptAll (.start settings start (linearResidual a b start) a columns) := ⟨rfl, rfl⟩
  obtain ⟨events, o, -, trace⟩ := exists_trace linear.shaped answers settings
  obtain ⟨_, ran⟩ := Linear.search_yields square length measured moves positive trace
  obtain ⟨once, counts⟩ := linear.trace solution kept trace
  refine ⟨_, columns, _, o, fun x => ⟨fun ⟨long, solves⟩ => solution.unique long solves, ?_⟩,
    measured, ran, fun _ _ s _ visited => ?_, once, counts, _, linear.newtonStep_eq solution,
    fun near => linear.trace_of_near solution near trace⟩
  · rintro rfl
    exact ⟨solution.long, solution.solves⟩
  · obtain ⟨state, -⟩ := Linear.of_visited solution positive visited
    exact ⟨state.matrix, state.reduction_eq solution, state.isAccepted solution⟩

/-- The solution of `x₁ = 3` and `x₀ = 4` is inside the first radius around zero, so one step is
enough. -/
theorem search_linear_exact_swap :
    swap.IsSquare ([0, 0] : List ℝ).length ∧
    ([3, 4] : List ℝ).length = ([0, 0] : List ℝ).length ∧ swap.factor? ≠ none ∧
    (0 : ℝ) ≤ epsilon ∧ swap.apply [0, 0] ≠ [3, 4] ∧ (0 : ℝ) < 100 ∧
    ∃ events o, Yields (search ⟨1e-10, 1000, 100⟩
        (.ofFunctions (fun x => .ok (linearResidual swap [3, 4] x)) fun _ => .ok swap)
        ([0, 0] : List ℝ)) events o ∧
      o.jacobians = 1 ∧ o.evaluations = o.iterations + 1 ∧ o.termination = .zeroResidual ∧
      o.point = [4, 3] ∧ o.evaluations = 2 := by
  have square : swap.IsSquare ([0, 0] : List ℝ).length := isSquare_swap
  have nonneg : (0 : ℝ) ≤ epsilon := le_rfl
  have unsolved : swap.apply [0, 0] ≠ [3, 4] := by simp [Rows.apply, swap]
  have positive : 0 < (⟨1e-10, 1000, 100⟩ : Settings ℝ).factor := by norm_num
  obtain ⟨root, columns, events, o, only, measured, ran, -, once, counts, step, newton, reaches⟩ :=
    search_linear_exact (b := [3, 4]) square rfl factor?_swap nonneg unsolved positive
  cases measured.symm.trans columnNorms_swap
  obtain rfl : [4, 3] = root := (only [4, 3]).mp ⟨rfl, by simp [Rows.apply, swap]⟩
  have residual : linearResidual swap [3, 4] [0, 0] = [-3, -4] := by
    simp [linearResidual, Rows.apply, swap]
  obtain rfl : [4, 3] = step := by
    rw [residual] at newton
    have solved : swap.solve? [- -3, - -4] = some [4, 3] := by
      rw [solve?_swap, neg_neg, neg_neg]
    exact Option.some.inj (solved.symm.trans newton)
  refine ⟨square, rfl, factor?_swap, nonneg, unsolved, positive, events, o, ran, once, counts,
    reaches ?_⟩
  have zero : norm [0, (0 : ℝ)] = 0 := norm_pair le_rfl (by norm_num)
  have whole : norm [4, (3 : ℝ)] = 5 := norm_pair (by norm_num) (by norm_num)
  norm_num [State.start, scaledNorm, stretch, zero, whole]

end ImplicitDiff.RootSearch
