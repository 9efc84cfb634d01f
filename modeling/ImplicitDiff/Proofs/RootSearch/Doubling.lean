import Mathlib.Tactic
import ImplicitDiff.Proofs.RootSearch.Linear
import ImplicitDiff.Proofs.RootSearch.Scales

/-! # How far a search for the solution of linear equations gets

As long as it cannot reach the solution, a search doubles its radius in every iteration, while the
solution gets no further away. So it would arrive from everywhere. What may stop it before is that
ten iterations in a row make too little progress. The tenth step is 512 times as long as the first
one, which is progress if the solution was not more than 512000 first radii away, but a solution a
little more than twice as far may never be found.
-/

namespace ImplicitDiff

open Arith

variable {F : Type} [ExactOrderedField F] {n : Nat} {a : Rows F} {b x : List F}

namespace RootSearch

variable [ExactRoots F] {s : State F} {settings : Settings F}

/-! ## The pace -/

/-- A state of a search whose radius reaches as far as its point is from zero, and whose matrix was
not evaluated again. -/
structure Striding (s : State F) : Prop where
  reach : s.pointNorm ≤ s.radius
  slowFresh : s.slowFresh ≤ 1
  fresh : s.fresh = true → s.slowFresh = 0

private theorem scaledNorm_add_le {scale x p : List F} (units : scale.length = n)
    (long : x.length = n) (step : p.length = n) :
    scaledNorm scale (x.zipWith (fun x p => x + p) p) ≤
      scaledNorm scale x + scaledNorm scale p := by
  have sum : (x.zipWith (fun x p => x + p) p).length = n := length_zipWith_eq long step
  have stretched {v : List F} (length : v.length = n) : (stretch scale v).length = n :=
    length_zipWith_eq length units
  have entries : vector (stretch scale (x.zipWith (fun x p => x + p) p)) n =
      vector (stretch scale x) n + vector (stretch scale p) n := by
    rw [vector_stretch units sum, vector_stretch units long, vector_stretch units step,
      vector_zipWith _ long step]
    funext i
    exact mul_add ..
  rw [scaledNorm, scaledNorm, scaledNorm, norm_eq_magnitude (stretched sum),
    norm_eq_magnitude (stretched long), norm_eq_magnitude (stretched step), entries]
  exact magnitude_add_le ..

/-- A search whose radius is twice the step and reaches as far as the point is from zero stops at
the solution or after ten iterations in a row without progress. -/
theorem State.verdict_eq {size : F} (positive : 0 < size) (radius : s.radius = 2 * size)
    (nonneg : 0 ≤ s.pointNorm) (reach : s.pointNorm ≤ s.radius) (few : s.slowFresh ≤ 1)
    (left : s.evaluations < settings.budget) (coarse : settings.tolerance < 1)
    (precise : (epsilon : F) < 1 / 20) :
    s.verdict settings size =
      if s.norm == 0 then some .zeroResidual
      else if s.slow = 10 then some .stalledIterations
      else none := by
  rw [radius] at reach
  have below {c d : F} (small : c < d) (some : 0 < d) : c * s.pointNorm < d * (2 * size) := by
    rcases nonneg.eq_or_lt with zero | above
    · rw [← zero, mul_zero]
      exact mul_pos some (mul_pos two_pos positive)
    · exact (mul_lt_mul_of_pos_right small above).trans_le (mul_le_mul_of_nonneg_left reach some.le)
  have wide : ¬s.radius ≤ settings.tolerance * s.pointNorm := by
    rw [radius, not_le, ← one_mul (2 * size)]
    exact below coarse one_pos
  have resolved : ¬0.1 * max (0.1 * s.radius) size ≤ epsilon * s.pointNorm := by
    rw [not_le, ExactRoots.decimal, Nat.cast_one, pow_one]
    calc epsilon * s.pointNorm
        < 1 / 20 * (2 * size) := below precise (by norm_num)
      _ = 1 / 10 * size := by ring
      _ ≤ 1 / 10 * max (1 / 10 * s.radius) size := by
          gcongr
          exact le_max_right ..
  have fewer : s.slowFresh ≠ 5 := by omega
  unfold State.verdict
  rw [if_neg wide, if_neg left.not_ge, if_neg resolved, if_neg fewer]

namespace Linear

variable {root : List F}

/-- A step to the radius keeps the pace. -/
theorem pace_after (linear : Linear a b n s) (solution : Solution a b n root)
    (striding : Striding s) (reached : s.trial.size = s.radius) :
    ((linearAnswers a b n).after s).pointNorm ≤ ((linearAnswers a b n).after s).radius ∧
      ((linearAnswers a b n).after s).slowFresh ≤ 1 := by
  have step : s.trial.step.length = n := linear.shaped.model.length_dogleg s.radius
  have further : scaledNorm s.scale s.trial.point ≤
      scaledNorm s.scale s.point + s.trial.size :=
    scaledNorm_add_le linear.shaped.model.scale linear.shaped.point step
  have reach := striding.reach
  rw [linear.after_eq solution]
  constructor
  · dsimp only
    rw [← linear.pointNorm] at further
    linarith
  · dsimp only
    have few := striding.slowFresh
    split_ifs with good fresh
    · exact Nat.zero_le 1
    · rw [striding.fresh fresh]
    · exact few

theorem striding_next (linear : Linear a b n s) (solution : Solution a b n root)
    (striding : Striding s) (reached : s.trial.size = s.radius) :
    Striding { (linearAnswers a b n).after s with fresh := false } := by
  obtain ⟨reach, few⟩ := linear.pace_after solution striding reached
  exact ⟨reach, few, fun fresh => absurd fresh Bool.false_ne_true⟩

/-- A search that kept the pace stops at the solution or after ten iterations in a row without
progress. -/
theorem verdict_after (linear : Linear a b n s) (solution : Solution a b n root)
    (striding : Striding s) (reached : s.trial.size = s.radius)
    (left : s.evaluations + 1 < settings.budget) (coarse : settings.tolerance < 1)
    (precise : (epsilon : F) < 1 / 20) :
    ((linearAnswers a b n).after s).verdict settings s.trial.size =
      if ImplicitDiff.norm (linearResidual a b s.trial.point) == 0 then some .zeroResidual
      else if ((linearAnswers a b n).after s).slow = 10 then some .stalledIterations
      else none := by
  obtain ⟨reach, few⟩ := linear.pace_after solution striding reached
  have norm : ((linearAnswers a b n).after s).norm =
      ImplicitDiff.norm (linearResidual a b s.trial.point) := by
    rw [linear.after_eq solution]
  have pointNorm : 0 ≤ ((linearAnswers a b n).after s).pointNorm := by
    rw [linear.after_eq solution]
    exact norm_nonneg _
  have radius : ((linearAnswers a b n).after s).radius = 2 * s.trial.size := by
    rw [linear.after_eq solution]
  have evaluations : ((linearAnswers a b n).after s).evaluations = s.evaluations + 1 := by
    rw [linear.after_eq solution]
  rw [← norm]
  exact State.verdict_eq (reached ▸ linear.radius) radius pointNorm reach few
    (evaluations ▸ left) coarse precise

/-- A trial that reaches the solution is the last one. -/
theorem stop_of_solved (linear : Linear a b n s) (solution : Solution a b n root)
    (solved : s.trial.point = root) (settings : Settings F) :
    ∃ events o, Stop (linearAnswers a b n) settings s events o ∧
      o.termination = .zeroResidual ∧ o.point = root := by
  have fits : ((linearAnswers a b n).value s.trial.point).length = s.point.length :=
    (length_linearResidual solution.square solution.length _).trans linear.shaped.point.symm
  have zero : ImplicitDiff.norm (linearResidual a b s.trial.point) = 0 := by
    rw [solved, norm_linearResidual_eq_zero_iff solution.square solution.length]
    exact solution.solves
  have found : ((linearAnswers a b n).after s).verdict settings s.trial.size =
      some .zeroResidual := by
    rw [linear.after_eq solution]
    exact if_pos (beq_iff_eq.mpr zero)
  refine ⟨_, _, .verdict fits found, rfl, ?_⟩
  rw [linear.after_eq solution]
  exact solved

/-- An iteration to the radius leads to a state with a radius twice as large, unless it was the
tenth in a row without progress. -/
theorem iterates (linear : Linear a b n s) (solution : Solution a b n root)
    (striding : Striding s) (reached : s.trial.size = s.radius)
    (unsolved : ImplicitDiff.norm (linearResidual a b s.trial.point) ≠ 0)
    (left : s.evaluations + 1 < settings.budget) (coarse : settings.tolerance < 1)
    (precise : (epsilon : F) < 1 / 20) :
    if ((linearAnswers a b n).after s).slow = 10 then
      Stop (linearAnswers a b n) settings s ((linearAnswers a b n).trialEvents s)
        (((linearAnswers a b n).after s).outcome .stalledIterations)
    else
      Step (linearAnswers a b n) settings s ((linearAnswers a b n).trialEvents s)
        { (linearAnswers a b n).after s with fresh := false } := by
  have fits : ((linearAnswers a b n).value s.trial.point).length = s.point.length :=
    (length_linearResidual solution.square solution.length _).trans linear.shaped.point.symm
  have verdict := linear.verdict_after solution striding reached left coarse precise
  rw [if_neg (by simp [unsolved])] at verdict
  split_ifs at verdict ⊢ with slow
  · exact .verdict fits verdict
  · have failures : ((linearAnswers a b n).after s).failures ≠ 2 := by
      rw [linear.after_eq solution]
      exact Nat.zero_ne_add_one 1
    have step : Step (linearAnswers a b n) settings s _ _ := .correct ⟨fits, verdict⟩ failures
    rw [linear.correct_eq solution] at step
    exact step

/-- An iteration without progress covers less than a thousandth of the distance. -/
theorem slow_after (linear : Linear a b n s) (solution : Solution a b n root)
    (far : s.radius < s.distance root) :
    ((linearAnswers a b n).after s).slow = 0 ∨
      ((linearAnswers a b n).after s).slow = s.slow + 1 ∧ 1000 * s.radius < s.distance root := by
  have shrunk := linear.norm_trial_le solution far
  have positive : 0 < s.norm * s.norm := mul_self_pos.mpr linear.unsolved
  have distance := linear.radius.trans far
  rw [linear.after_eq solution]
  dsimp only
  rw [relativeReduction_eq, div_mul_div_comm, ExactRoots.decimal]
  generalize ImplicitDiff.norm (linearResidual a b s.trial.point) = after at shrunk
  split_ifs with good
  · exact .inl rfl
  · refine .inr ⟨rfl, ?_⟩
    by_contra close
    refine good ?_
    have part : after * after ≤ 999 / 1000 * (s.norm * s.norm) := by
      refine le_of_mul_le_mul_right ?_ distance
      calc after * after * s.distance root
          ≤ s.norm * s.norm * (s.distance root - s.radius) := shrunk
        _ ≤ s.norm * s.norm * (999 / 1000 * s.distance root) := by
          gcongr
          linarith
        _ = 999 / 1000 * (s.norm * s.norm) * s.distance root := by ring
    have share := (div_le_iff₀ positive).mpr part
    norm_num
    linarith

/-- After a step to the radius the solution is no further away. -/
theorem distance_after (linear : Linear a b n s) (solution : Solution a b n root)
    (far : s.radius < s.distance root) :
    ((linearAnswers a b n).after s).distance root ≤ s.distance root := by
  rw [linear.after_eq solution]
  exact linear.distance_trial_le solution far

theorem radius_after (linear : Linear a b n s) (solution : Solution a b n root)
    (reached : s.trial.size = s.radius) :
    ((linearAnswers a b n).after s).radius = 2 * s.radius := by
  rw [linear.after_eq solution, ← reached]

end Linear

/-- How the iterations from a state end: at the solution, or without progress if the solution is so
far away that ten steps of doubled length can all be short of a thousandth of the way. -/
inductive Ends (root : List F) (s : State F) (o : Outcome F) : Prop
  | solved : o.termination = .zeroResidual → o.point = root → Ends root s o
  | stalled : o.termination = .stalledIterations →
      512000 * s.radius < s.distance root * 2 ^ s.slow → Ends root s o

namespace Linear

variable {root : List F} {o : Outcome F}

/-- The iterations after a trial end like those from the state before it. -/
theorem ends_of_after (linear : Linear a b n s) (solution : Solution a b n root)
    (far : s.radius < s.distance root) (reached : s.trial.size = s.radius)
    (ends : Ends root { (linearAnswers a b n).after s with fresh := false } o) :
    Ends root s o := by
  cases ends with
  | solved zero arrived => exact .solved zero arrived
  | stalled stopped remote =>
    refine .stalled stopped ?_
    change 512000 * ((linearAnswers a b n).after s).radius <
      ((linearAnswers a b n).after s).distance root * 2 ^ ((linearAnswers a b n).after s).slow
      at remote
    have distance := linear.distance_after solution far
    rw [linear.radius_after solution reached] at remote
    have positive := linear.radius
    rcases linear.slow_after solution far with slow | ⟨slow, -⟩
    · rw [slow, pow_zero, mul_one] at remote
      have once : s.distance root ≤ s.distance root * 2 ^ s.slow :=
        le_mul_of_one_le_right (positive.trans far).le (one_le_pow₀ one_le_two)
      linarith
    · rw [slow, pow_succ] at remote
      have grows : ((linearAnswers a b n).after s).distance root * 2 ^ s.slow ≤
          s.distance root * 2 ^ s.slow := mul_le_mul_of_nonneg_right distance (by positivity)
      linarith

/-- A search that stops for lack of progress after a trial was far from the solution before it. -/
theorem ends_stalled (linear : Linear a b n s) (solution : Solution a b n root)
    (far : s.radius < s.distance root) (slow : ((linearAnswers a b n).after s).slow = 10) :
    Ends root s (((linearAnswers a b n).after s).outcome .stalledIterations) := by
  refine .stalled rfl ?_
  rcases linear.slow_after solution far with none | ⟨more, remote⟩
  · omega
  · have nine : s.slow = 9 := by omega
    rw [nine]
    linarith

/-- **The iterations from a state end** at the solution or after ten iterations in a row without
progress, if the budget allows for the doublings of the radius that the distance takes. -/
theorem exists_trace (solution : Solution a b n root) (coarse : settings.tolerance < 1)
    (precise : (epsilon : F) < 1 / 20) (k : Nat) {s : State F} (linear : Linear a b n s)
    (striding : Striding s) (near : s.distance root ≤ 2 ^ k * s.radius)
    (left : s.evaluations + k < settings.budget) :
    ∃ events o, Trace (linearAnswers a b n) settings s events o ∧ Ends root s o := by
  have last {s : State F} (linear : Linear a b n s) (solved : s.trial.point = root) :
      ∃ events o, Trace (linearAnswers a b n) settings s events o ∧ Ends root s o := by
    obtain ⟨events, o, stop, zero, arrived⟩ := linear.stop_of_solved solution solved settings
    exact ⟨_, o, .stop stop, .solved zero arrived⟩
  induction k generalizing s with
  | zero =>
    rw [pow_zero, one_mul] at near
    exact last linear (linear.trial_inside solution near)
  | succ k ih =>
    rcases le_or_gt (s.distance root) s.radius with inside | far
    · exact last linear (linear.trial_inside solution inside)
    by_cases zero : ImplicitDiff.norm (linearResidual a b s.trial.point) = 0
    · have solves := (norm_linearResidual_eq_zero_iff solution.square solution.length _).mp zero
      exact last linear (solution.unique linear.shaped.length_trial solves)
    obtain ⟨reached, -⟩ := linear.trial_onPath solution far
    have iterates := linear.iterates solution striding reached zero (by omega) coarse precise
    split_ifs at iterates with slow
    · exact ⟨_, _, .stop iterates, linear.ends_stalled solution far slow⟩
    · have evaluations : ((linearAnswers a b n).after s).evaluations = s.evaluations + 1 :=
        State.evaluations_advance ..
      have close : ((linearAnswers a b n).after s).distance root ≤
          2 ^ k * ((linearAnswers a b n).after s).radius := by
        rw [linear.radius_after solution reached, ← mul_assoc, ← pow_succ]
        exact (linear.distance_after solution far).trans near
      have enough : ((linearAnswers a b n).after s).evaluations + k < settings.budget := by omega
      obtain ⟨events, o, trace, ends⟩ := ih
        (linear.next solution zero (reached ▸ linear.radius))
        (linear.striding_next solution striding reached) close enough
      exact ⟨_, o, .step iterates trace, linear.ends_of_after solution far reached ends⟩

end Linear

/-! ## Solutions that are too far away -/

namespace Linear

variable {root : List F}

private theorem trial_size_le (linear : Linear a b n s) (solution : Solution a b n root) :
    s.trial.size ≤ s.radius := by
  rcases le_or_gt (s.distance root) s.radius with inside | far
  · change scaledNorm s.scale s.trial.step ≤ s.radius
    rw [linear.step_inside solution inside]
    exact inside
  · exact (linear.trial_onPath solution far).1.le

/-- A step shortens the residual by no more than what the matrix makes of it. -/
theorem norm_le_add (linear : Linear a b n s) (solution : Solution a b n root) :
    s.norm ≤ ImplicitDiff.norm (linearResidual a b s.trial.point) +
      ImplicitDiff.norm (a.apply s.trial.step) := by
  have fits := linear.residual_length
  have rows := solution.square.length_apply s.trial.step
  have value := length_linearResidual solution.square solution.length s.trial.point
  have model := linear.model_eq solution.square solution.length
  rw [LinearModel.residualAfter, linear.matrix] at model
  have entries : vector s.residual n = vector (linearResidual a b s.trial.point) n +
      -vector (a.apply s.trial.step) n := by
    rw [← model, vector_zipWith _ rows fits]
    funext i
    simp
  rw [linear.norm, norm_eq_magnitude fits, norm_eq_magnitude value, norm_eq_magnitude rows, entries,
    ← magnitude_neg (vector (a.apply s.trial.step) n)]
  exact magnitude_add_le ..

/-- An iteration whose step is too short for the residual makes no progress. -/
theorem crawls (linear : Linear a b n s) (solution : Solution a b n root)
    (gentle : ∀ p, p.length = n → ImplicitDiff.norm (a.apply p) ≤ scaledNorm s.scale p)
    (remote : 2000 * s.radius < s.norm) :
    s.norm ≤ ImplicitDiff.norm (linearResidual a b s.trial.point) + s.radius ∧
      s.trial.size = s.radius ∧
      ((linearAnswers a b n).after s).slow = s.slow + 1 := by
  have step : s.trial.step.length = n := linear.shaped.model.length_dogleg s.radius
  have positive := linear.radius
  have short : s.norm ≤ ImplicitDiff.norm (linearResidual a b s.trial.point) + s.radius := by
    have shrunk := gentle s.trial.step step
    have size : scaledNorm s.scale s.trial.step ≤ s.radius := linear.trial_size_le solution
    linarith [linear.norm_le_add solution]
  have far : s.radius < s.distance root := by
    by_contra inside
    rw [linear.trial_inside solution (not_lt.mp inside),
      (norm_linearResidual_eq_zero_iff solution.square solution.length root).mpr solution.solves]
      at short
    linarith
  refine ⟨short, (linear.trial_onPath solution far).1, ?_⟩
  have long : 0 < s.norm := by linarith
  rw [linear.after_eq solution]
  dsimp only
  rw [relativeReduction_eq, ExactRoots.decimal]
  generalize ImplicitDiff.norm (linearResidual a b s.trial.point) = after at short
  refine if_neg ?_
  have part : 1999 / 2000 < after / s.norm := by
    rw [lt_div_iff₀ long]
    linarith
  have square : (1999 / 2000 : F) * (1999 / 2000) < after / s.norm * (after / s.norm) :=
    mul_self_lt_mul_self (by norm_num) part
  norm_num at square ⊢
  linarith

/-- A search with a matrix that does not stretch the scaled variables stops without progress, if the
residual is too long for the steps that are left of ten. -/
theorem stalls (solution : Solution a b n root) (coarse : settings.tolerance < 1)
    (precise : (epsilon : F) < 1 / 20) (k : Nat) {s : State F} (linear : Linear a b n s)
    (striding : Striding s)
    (gentle : ∀ p, p.length = n → ImplicitDiff.norm (a.apply p) ≤ scaledNorm s.scale p)
    (slow : s.slow + k = 9) (remote : (2001 * 2 ^ k - 1) * s.radius < s.norm)
    (left : s.evaluations + k + 1 < settings.budget) :
    ∃ events o, Trace (linearAnswers a b n) settings s events o ∧
      o.termination = .stalledIterations := by
  induction k generalizing s with
  | zero =>
    have long : 2000 * s.radius < s.norm := by linarith
    obtain ⟨short, reached, more⟩ := linear.crawls solution gentle long
    have unsolved : ImplicitDiff.norm (linearResidual a b s.trial.point) ≠ 0 := by
      intro zero
      linarith [linear.radius]
    have stop := linear.iterates solution striding reached unsolved left coarse precise
    rw [if_pos (by omega)] at stop
    exact ⟨_, _, .stop stop, rfl⟩
  | succ k ih =>
    have doublings : (1 : F) ≤ 2 ^ (k + 1) := one_le_pow₀ one_le_two
    have long : 2000 * s.radius < s.norm := by
      refine lt_of_le_of_lt (mul_le_mul_of_nonneg_right ?_ linear.radius.le) remote
      linarith
    obtain ⟨short, reached, more⟩ := linear.crawls solution gentle long
    have unsolved : ImplicitDiff.norm (linearResidual a b s.trial.point) ≠ 0 := by
      intro zero
      linarith [linear.radius]
    have step := linear.iterates solution striding reached unsolved (by omega) coarse precise
    rw [if_neg (by omega)] at step
    have evaluations : ((linearAnswers a b n).after s).evaluations = s.evaluations + 1 :=
      State.evaluations_advance ..
    have norm : ((linearAnswers a b n).after s).norm =
        ImplicitDiff.norm (linearResidual a b s.trial.point) := by
      rw [linear.after_eq solution]
    have scale : ((linearAnswers a b n).after s).scale = s.scale := State.scale_advance ..
    have remaining : (2001 * 2 ^ k - 1) * ((linearAnswers a b n).after s).radius <
        ((linearAnswers a b n).after s).norm := by
      rw [linear.radius_after solution reached, norm]
      rw [pow_succ] at remote
      linarith
    have counted : ((linearAnswers a b n).after s).slow + k = 9 := by omega
    have enough : ((linearAnswers a b n).after s).evaluations + k + 1 < settings.budget := by omega
    obtain ⟨events, o, trace, stalled⟩ := ih
      (linear.next solution unsolved (reached ▸ linear.radius))
      (linear.striding_next solution striding reached) (scale ▸ gentle) counted remaining enough
    exact ⟨_, o, .step step trace, stalled⟩

end Linear

/-! ## The first state -/

section Start

variable {columns root : List F}

/-- The first state of a search that goes on from its first point. -/
theorem Linear.start (square : a.IsSquare x.length) (length : b.length = x.length)
    (measured : columnNorms a x.length = .ok columns)
    (unsolved : ImplicitDiff.norm (linearResidual a b x) ≠ 0) (positive : 0 < settings.factor) :
    Linear a b x.length (.start settings x (linearResidual a b x) a columns) := by
  have answers : (linearAnswers a b x.length).IsSquare := fun _ _ _ => square
  refine ⟨.start settings answers (length_linearResidual square length x) measured, rfl,
    units_start square measured .., rfl, rfl, unsolved, ?_⟩
  have size := norm_nonneg (stretch (columns.map fun d => if d == 0 then 1 else d) x)
  unfold State.start
  dsimp only
  split_ifs with zero
  · exact positive
  · exact (mul_nonneg positive.le size).lt_of_ne' fun same => zero (beq_iff_eq.mpr same)

theorem Striding.start (settings : Settings F) (trusting : 1 ≤ settings.factor)
    (point residual : List F) (jacobian : Rows F) (columns : List F) :
    Striding (.start settings point residual jacobian columns) := by
  refine ⟨?_, Nat.zero_le 1, fun _ => rfl⟩
  have positive : 0 < settings.factor := one_pos.trans_le trusting
  have size := norm_nonneg (stretch (columns.map fun d => if d == 0 then 1 else d) point)
  unfold State.start
  dsimp only
  split_ifs with zero
  · have none := (mul_eq_zero.mp (beq_iff_eq.mp zero)).resolve_left positive.ne'
    exact none.trans_le positive.le
  · exact le_mul_of_one_le_left size trusting

/-- The iterations from the first state make a search. -/
theorem Linear.search_yields (square : a.IsSquare x.length) (length : b.length = x.length)
    (measured : columnNorms a x.length = .ok columns)
    (unsolved : ImplicitDiff.norm (linearResidual a b x) ≠ 0) (positive : 0 < settings.factor)
    {events : Journal F} {o : Outcome F}
    (trace : Trace (linearAnswers a b x.length) settings
      (.start settings x (linearResidual a b x) a columns) events o) :
    ∃ events, Yields (search settings
      (.ofFunctions (fun x => .ok (linearResidual a b x)) fun _ => .ok a) x) events o := by
  have answers : (linearAnswers a b x.length).IsSquare := fun _ _ _ => square
  have departs : Departs (linearAnswers a b x.length).value
      (linearAnswers a b x.length).matrix x :=
    ⟨length_linearResidual square length x, ExactRoots.isFinite_eq _,
      beq_eq_false_iff_ne.mpr unsolved, Rows.allFinite_eq _⟩
  have linear := Linear.start square length measured unsolved positive
  exact ⟨_, departs.search_yields measured (trace.run_yields linear.shaped answers)⟩

/-- **A search for the solution of linear equations** ends there, or it stops after ten iterations
in a row without progress. That takes a solution that is more than half a million first radii away,
in the scaled variables. -/
theorem search_linear_ends [Archimedean F] {start : List F} {tolerance factor : F}
    (square : a.IsSquare start.length) (length : b.length = start.length)
    (factored : a.factor? ≠ none) (measured : columnNorms a start.length = .ok columns)
    (nonneg : 0 ≤ (epsilon : F)) (precise : (epsilon : F) < 1 / 20) (coarse : tolerance < 1)
    (trusting : 1 ≤ factor) :
    ∃ root, (∀ x, x.length = start.length ∧ a.apply x = b ↔ x = root) ∧
      ∃ least, ∀ budget, least ≤ budget → ∃ events o,
        Yields (search ⟨tolerance, budget, factor⟩
          (.ofFunctions (fun x => .ok (linearResidual a b x)) fun _ => .ok a) start) events o ∧
        let first :=
          State.start ⟨tolerance, budget, factor⟩ start (linearResidual a b start) a columns
        (o.termination = .zeroResidual ∧ o.point = root ∨
          o.termination = .stalledIterations ∧ 512000 * first.radius < first.distance root) := by
  obtain ⟨factors, factored⟩ := Option.ne_none_iff_exists'.mp factored
  have solution := Solution.of_factors nonneg square factored length
  refine ⟨factors.solve b, fun x => ⟨fun ⟨long, solves⟩ => solution.unique long solves, ?_⟩, ?_⟩
  · rintro rfl
    exact ⟨solution.long, solution.solves⟩
  by_cases zero : ImplicitDiff.norm (linearResidual a b start) = 0
  · have solves := (norm_linearResidual_eq_zero_iff square length start).mp zero
    have fits := length_linearResidual square length start
    refine ⟨0, fun budget _ => ⟨_, _, search_yields_of_zero (a := linearAnswers a b start.length)
      _ fits (ExactRoots.isFinite_eq _) (beq_iff_eq.mpr zero) rfl, .inl ⟨rfl, ?_⟩⟩⟩
    exact solution.unique rfl solves
  · have positive : 0 < factor := one_pos.trans_le trusting
    -- Neither the distance nor the radius depends on the budget.
    let first (budget : Nat) : State F :=
      .start ⟨tolerance, budget, factor⟩ start (linearResidual a b start) a columns
    have linear (budget : Nat) : Linear a b start.length (first budget) :=
      .start square length measured zero positive
    obtain ⟨k, reach⟩ := pow_unbounded_of_one_lt
      ((first 0).distance (factors.solve b) / (first 0).radius) one_lt_two
    have near := ((div_lt_iff₀ (linear 0).radius).mp reach).le
    refine ⟨k + 2, fun budget enough => ?_⟩
    have left : 1 + k < budget := by omega
    obtain ⟨events, o, trace, ends⟩ : ∃ events o,
        Trace (linearAnswers a b start.length) ⟨tolerance, budget, factor⟩ (first budget) events o ∧
          Ends (factors.solve b) (first budget) o :=
      Linear.exists_trace solution coarse precise k (linear budget) (.start _ trusting ..) near left
    obtain ⟨events, ran⟩ := Linear.search_yields square length measured zero positive trace
    refine ⟨events, o, ran, ?_⟩
    cases ends with
    | solved zero arrived => exact .inl ⟨zero, arrived⟩
    | stalled stopped remote =>
      refine .inr ⟨stopped, ?_⟩
      have once : (first budget).slow = 0 := rfl
      rwa [once, pow_zero, mul_one] at remote

end Start

/-- The solution of `x₁ = 3000000` and `x₀ = 4000000` is fifty thousand first radii away from zero.
-/
theorem search_linear_ends_swap :
    swap.IsSquare ([0, 0] : List ℝ).length ∧
    ([3000000, 4000000] : List ℝ).length = ([0, 0] : List ℝ).length ∧
    swap.factor? ≠ none ∧ columnNorms swap ([0, 0] : List ℝ).length = .ok ([1, 1] : List ℝ) ∧
    (0 : ℝ) ≤ epsilon ∧ (epsilon : ℝ) < 1 / 20 ∧ (1e-10 : ℝ) < 1 ∧ (1 : ℝ) ≤ 100 ∧
    ∃ root, (∀ x, x.length = ([0, 0] : List ℝ).length ∧
        swap.apply x = [3000000, 4000000] ↔ x = root) ∧
      ∃ least, ∀ budget, least ≤ budget → ∃ events o,
        Yields (search ⟨1e-10, budget, 100⟩ (.ofFunctions
          (fun x => .ok (linearResidual swap [3000000, 4000000] x)) fun _ => .ok swap)
          ([0, 0] : List ℝ)) events o ∧
        let first := State.start ⟨1e-10, budget, 100⟩ [0, 0]
          (linearResidual swap [3000000, 4000000] [0, 0]) swap [1, 1]
        (o.termination = .zeroResidual ∧ o.point = root ∨
          o.termination = .stalledIterations ∧ 512000 * first.radius < first.distance root) := by
  have nonneg : (0 : ℝ) ≤ epsilon := le_rfl
  have precise : (epsilon : ℝ) < 1 / 20 := one_div_pos.mpr (by norm_num)
  have coarse : (1e-10 : ℝ) < 1 := by norm_num
  have trusting : (1 : ℝ) ≤ 100 := by norm_num
  exact ⟨isSquare_swap, rfl, factor?_swap, columnNorms_swap, nonneg, precise, coarse, trusting,
    search_linear_ends isSquare_swap rfl factor?_swap columnNorms_swap nonneg precise coarse
      trusting⟩

/-- The matrix of `x = c` has factors. -/
theorem factor?_one : Rows.factor? ([[1]] : Rows ℝ) ≠ none := by
  have unrounded : (epsilon : ℝ) = 0 := rfl
  simp [Rows.factor?, ExactRoots.isFinite_eq, largest, eliminateColumns, choosePivot, largerHead?,
    PartialRow.head, Arith.abs_eq, unrounded]

theorem columnNorms_one : columnNorms ([[1]] : Rows ℝ) 1 = .ok [1] := by
  rw [columnNorms_singleton, abs_one]

/-- The solution of `x = 110000000` is 1100000 first radii away from zero, and no budget is enough
for a search with the usual settings to arrive there. -/
theorem search_linear_stalls :
    Rows.factor? ([[1]] : Rows ℝ) ≠ none ∧
    ¬∃ least, ∀ budget, least ≤ budget → ∃ events o,
      Yields (search ⟨1e-10, budget, 100⟩
        (.ofFunctions (fun x => .ok (linearResidual [[1]] [110000000] x)) fun _ => .ok [[1]])
        ([0] : List ℝ)) events o ∧
      o.termination = .zeroResidual := by
  refine ⟨factor?_one, ?_⟩
  rintro ⟨least, all⟩
  obtain ⟨events, o, ran, zero⟩ := all (least + 12) (by omega)
  let settings : Settings ℝ := ⟨1e-10, least + 12, 100⟩
  have square : Rows.IsSquare ([[1]] : Rows ℝ) 1 := isSquare_one 1
  have residual : linearResidual [[1]] [110000000] [(0 : ℝ)] = [-110000000] := by
    simp [linearResidual, Rows.apply]
  have norm : ImplicitDiff.norm (linearResidual [[1]] [110000000] [(0 : ℝ)]) = 110000000 := by
    rw [residual, norm_singleton]
    norm_num
  have unsolved : ImplicitDiff.norm (linearResidual [[1]] [110000000] [(0 : ℝ)]) ≠ 0 := by
    rw [norm]
    norm_num
  obtain ⟨factors, factored⟩ := Option.ne_none_iff_exists'.mp factor?_one
  have solution : Solution ([[1]] : Rows ℝ) [110000000] 1 _ :=
    .of_factors le_rfl square factored rfl
  let first : State ℝ :=
    .start settings [0] (linearResidual [[1]] [110000000] [0]) [[1]] [1]
  have linear : Linear [[1]] [110000000] 1 first :=
    .start (x := [0]) square rfl columnNorms_one unsolved (by norm_num [settings])
  have scale : first.scale = [1] := by
    simp [first, State.start]
  have radius : first.radius = 100 := by
    simp [first, State.start, scaledNorm, norm_singleton, settings]
  have gentle (p : List ℝ) (length : p.length = 1) :
      ImplicitDiff.norm (Rows.apply [[1]] p) ≤ scaledNorm first.scale p := by
    obtain ⟨q, rfl⟩ := List.length_eq_one_iff.mp length
    rw [scale]
    simp [Rows.apply, scaledNorm, norm_singleton]
  have remote : (2001 * 2 ^ 9 - 1) * first.radius < first.norm := by
    have long : first.norm = 110000000 := norm
    rw [radius, long]
    norm_num
  have striding : Striding first := .start settings (by norm_num) ..
  have enough : first.evaluations + 9 + 1 < settings.budget := by
    change 1 + 9 + 1 < least + 12
    omega
  obtain ⟨more, other, trace, stalled⟩ := Linear.stalls solution (by norm_num)
    (one_div_pos.mpr (by norm_num)) 9 linear striding gentle rfl remote enough
  have trusting : 0 < settings.factor := by norm_num [settings]
  obtain ⟨all, yields⟩ := Linear.search_yields (x := [0]) (b := [110000000]) square rfl
    columnNorms_one unsolved trusting trace
  cases zero.symm.trans ((congrArg Outcome.termination (ran.unique yields)).trans stalled)

end RootSearch

end ImplicitDiff
