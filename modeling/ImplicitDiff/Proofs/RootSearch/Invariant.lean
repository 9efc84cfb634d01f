import Mathlib.Tactic
import ImplicitDiff.Proofs.RootSearch.Scales
import ImplicitDiff.Proofs.RootSearch.TrustRegion

/-! # What every iteration keeps

The scaled length of the point is measured when the point is kept, and the radius is compared with
this stored length. A matrix that is evaluated afresh makes the scales larger in between, and a
longer scaled length is what the comparison may only err towards: the stored length never exceeds
the scaled length by the scales of the moment. So a search that says that it has converged has.

The counts of iterations without progress are compared with their limits by equality, which is safe
because they grow by one at a time and a search that reaches a limit stops.
-/

namespace ImplicitDiff

open Arith

variable {F : Type} [ExactOrderedField F]

/-! ## Scales that grow -/

theorem forall₂_le_trans {u v w : List F} (first : List.Forall₂ (· ≤ ·) u v)
    (second : List.Forall₂ (· ≤ ·) v w) : List.Forall₂ (· ≤ ·) u w := by
  induction first generalizing w with
  | nil => exact second
  | cons below _ ih =>
    cases second with
    | cons above rest => exact .cons (below.trans above) (ih rest)

omit [ExactOrderedField F] in
private theorem forall₂_zipWith {R S : F → F → Prop} {f : F → F → F} (left : ∀ a b, R a (f a b))
    (right : ∀ a b, S b (f a b)) {u v : List F} (same : u.length = v.length) :
    List.Forall₂ R u (u.zipWith f v) ∧ List.Forall₂ S v (u.zipWith f v) := by
  induction u generalizing v with
  | nil =>
    obtain rfl := List.length_eq_zero_iff.mp same.symm
    exact ⟨.nil, .nil⟩
  | cons a u ih =>
    obtain ⟨b, v, rfl⟩ := List.exists_cons_of_length_eq_add_one same.symm
    obtain ⟨first, second⟩ := ih (Nat.succ.inj same)
    exact ⟨.cons (left a b) first, .cons (right a b) second⟩

/-- Larger scales make no vector shorter. -/
theorem scaledNorm_mono [ExactRoots F] {d e : List F} (nonneg : ∀ c ∈ d, 0 ≤ c)
    (below : List.Forall₂ (· ≤ ·) d e) (v : List F) : scaledNorm d v ≤ scaledNorm e v := by
  have sums : squares (stretch d v) ≤ squares (stretch e v) := by
    induction below generalizing v with
    | nil => exact le_rfl
    | @cons a b d e first _ ih =>
      obtain ⟨sign, others⟩ := List.forall_mem_cons.mp nonneg
      cases v with
      | nil => exact le_rfl
      | cons x v =>
        have entry : a * x * (a * x) ≤ b * x * (b * x) := by
          have grows := mul_le_mul first first sign (sign.trans first)
          calc a * x * (a * x) = a * a * (x * x) := by ring
            _ ≤ b * b * (x * x) := mul_le_mul_of_nonneg_right grows (mul_self_nonneg x)
            _ = b * x * (b * x) := by ring
        exact add_le_add entry (ih others v)
  rw [← norm_mul_self, ← norm_mul_self] at sums
  exact (mul_self_le_mul_self_iff (norm_nonneg _) (norm_nonneg _)).mpr sums

namespace RootSearch

namespace State

variable (s : State F) (t : Trial F) (r : Assessment F)

private theorem pointNorm_advance : (s.advance t r).pointNorm =
    if r.isAccepted then scaledNorm s.scale t.point else s.pointNorm := by
  unfold advance keep
  split_ifs <;> rfl

private theorem radius_advance : (s.advance t r).radius = s.nextRadius t r := by
  unfold advance keep
  split_ifs <;> rfl

private theorem successes_advance :
    (s.advance t r).successes = if r.isFailure then 0 else s.successes + 1 := by
  have adjusted : (s.adjust t r).successes = if r.isFailure then 0 else s.successes + 1 := rfl
  rw [← adjusted]
  unfold advance keep
  split <;> rfl

private theorem slow_advance_le : (s.advance t r).slow ≤ s.slow + 1 := by
  have kept : ((s.adjust t r).keep t r).slow = s.slow := by
    unfold keep
    split <;> rfl
  change (if 0.001 ≤ r.reduction then 0 else ((s.adjust t r).keep t r).slow + 1) ≤ s.slow + 1
  rw [kept]
  split <;> omega

private theorem slowFresh_advance_le : (s.advance t r).slowFresh ≤ s.slowFresh + 1 := by
  have kept : ((s.adjust t r).keep t r).slowFresh = s.slowFresh := by
    unfold keep
    split <;> rfl
  change (if 0.1 ≤ r.reduction then 0
    else if ((s.adjust t r).keep t r).fresh then ((s.adjust t r).keep t r).slowFresh + 1
    else ((s.adjust t r).keep t r).slowFresh) ≤ s.slowFresh + 1
  rw [kept]
  split_ifs <;> omega

variable {s t} in
private theorem nextRadius_nonneg [ExactRoots F] (radius : 0 ≤ s.radius) (size : 0 ≤ t.size) :
    0 ≤ s.nextRadius t r := by
  have half : (0 : F) ≤ 0.5 := by
    rw [ExactRoots.decimal]
    positivity
  have kept : 0 ≤ if s.untried then min s.radius t.size else s.radius := by
    split_ifs
    · exact le_min radius size
    · exact radius
  have grown : 0 ≤ t.size / 0.5 := div_nonneg size half
  unfold nextRadius
  dsimp only
  generalize (if s.untried then min s.radius t.size else s.radius) = bound at kept
  split_ifs
  · exact mul_nonneg half kept
  · exact grown
  · exact kept.trans (le_max_left ..)
  · exact kept

variable {s} {settings : Settings F} {size : F}

/-- What a search knows that goes on. -/
theorem lt_of_verdict (open_ : s.verdict settings size = none) :
    settings.tolerance * s.pointNorm < s.radius ∧ s.slow ≠ 10 ∧ s.slowFresh ≠ 5 := by
  unfold verdict at open_
  split_ifs at open_ with _ large _ _ fresh slow
  exact ⟨not_le.mp large, slow, fresh⟩

private theorem le_of_converged (found : s.verdict settings size = some .converged) :
    s.radius ≤ settings.tolerance * s.pointNorm := by
  unfold verdict at found
  split_ifs at found <;> first | assumption | cases found

end State

variable {n : Nat} {s t : State F} {settings : Settings F} {p : Problem F}
  {x residual columns : List F} {given new : List (Rows F)} {jacobian : Rows F}
  {journal before after last : Journal F} {o : Outcome F}

/-- The scales are at least as large as the columns of the matrix are long. -/
def Covers (scale : List F) (n : Nat) (jacobian : Rows F) : Prop :=
  ∃ columns, columnNorms jacobian n = .ok columns ∧ List.Forall₂ (· ≤ ·) columns scale

/-- What holds throughout a search that has obtained these matrices so far. -/
structure Sound (n : Nat) (given : List (Rows F)) (s : State F) : Prop where
  model : s.IsSquare n
  point : s.point.length = n
  /-- There is a positive scale for each unknown. -/
  units : Units s.scale n
  /-- No column was longer of any matrix. -/
  covers : ∀ jacobian ∈ given, Covers s.scale n jacobian
  radius : 0 ≤ s.radius
  pointNorm : 0 ≤ s.pointNorm
  /-- The stored length does not exceed the scaled length of the point. -/
  honest : s.pointNorm ≤ scaledNorm s.scale s.point
  /-- Successes in a row and failures in a row exclude each other. -/
  alternate : s.successes = 0 ∨ s.failures = 0
  slow : s.slow ≤ 10
  slowFresh : s.slowFresh ≤ 5

/-- What holds where an iteration begins: no limit is reached. -/
structure Begins (n : Nat) (given : List (Rows F)) (s : State F) : Prop extends
    Sound n given s where
  radius_pos : 0 < s.radius
  slow_lt : s.slow < 10
  slowFresh_lt : s.slowFresh < 5

/-- A search that goes on has reached no limit. -/
theorem Sound.begins (sound : Sound n given s) (tolerance : 0 ≤ settings.tolerance) {size : F}
    (open_ : s.verdict settings size = none) : Begins n given s := by
  obtain ⟨large, slow, fresh⟩ := State.lt_of_verdict open_
  exact {
    sound with
    radius_pos := (mul_nonneg tolerance sound.pointNorm).trans_lt large
    slow_lt := sound.slow.lt_of_ne slow
    slowFresh_lt := sound.slowFresh.lt_of_ne fresh }

namespace Begins

theorem correct (begins : Begins n given s) (t : Trial F) (r : Assessment F) :
    Begins n given (s.correct t r) := by
  unfold State.correct
  split_ifs
  · exact { begins with
      model := ⟨isSquare_addOuter begins.model.jacobian _ _, begins.model.scale⟩ }
  · exact { begins with }

variable [ExactRoots F]

/-- The first state. -/
theorem start (factor : 0 < settings.factor) (long : x.length = n) (square : jacobian.IsSquare n)
    (measured : columnNorms jacobian n = .ok columns) :
    Begins n [jacobian] (.start settings x residual jacobian columns) := by
  have units := units_start square measured settings x residual
  have covers : Covers (State.start settings x residual jacobian columns).scale n jacobian := by
    refine ⟨columns, measured, List.forall₂_map_right_iff.mpr (List.forall₂_same.mpr ?_)⟩
    intro d _
    split_ifs with zero
    · exact (beq_iff_eq.mp zero).trans_le zero_le_one
    · exact le_rfl
  have radius : 0 < (State.start settings x residual jacobian columns).radius := by
    unfold State.start
    dsimp only
    split_ifs with zero
    · exact factor
    · refine (mul_nonneg factor.le (norm_nonneg _)).lt_of_ne' fun same => zero ?_
      exact beq_iff_eq.mpr same
  exact {
    model := ⟨square, units.length⟩
    point := long
    units
    covers := List.forall_mem_singleton.mpr covers
    radius := radius.le
    pointNorm := norm_nonneg _
    honest := le_rfl
    alternate := .inl rfl
    slow := Nat.zero_le _
    slowFresh := Nat.zero_le _
    radius_pos := radius
    slow_lt := Nat.succ_pos _
    slowFresh_lt := Nat.succ_pos _ }

/-- The step is no longer than the radius. -/
theorem size_le (begins : Begins n given s) : s.trial.size ≤ s.radius :=
  begins.model.scaledNorm_dogleg_le begins.units begins.radius_pos

/-- After a trial the stored length is still honest, because it is measured anew where the point
changes. -/
theorem tried (begins : Begins n given s) (residual : List F) :
    Sound n given (s.tried residual) := by
  have scale : (s.tried residual).scale = s.scale := State.scale_advance ..
  have point : (s.tried residual).point = _ := State.point_advance ..
  have length : (s.tried residual).pointNorm = _ := State.pointNorm_advance ..
  have long : s.trial.point.length = n :=
    length_zipWith_eq begins.point (begins.model.length_dogleg s.radius)
  have radius : (s.tried residual).radius = _ := State.radius_advance ..
  have successes : (s.tried residual).successes = _ := State.successes_advance ..
  have failures : (s.tried residual).failures = _ := State.failures_advance ..
  exact {
    model := begins.model.congr (State.jacobian_advance ..) scale
    point := by
      rw [point]
      split_ifs
      · exact long
      · exact begins.point
    units := scale ▸ begins.units
    covers := scale ▸ begins.covers
    radius := radius ▸ State.nextRadius_nonneg _ begins.radius (norm_nonneg _)
    pointNorm := by
      rw [length]
      split_ifs
      · exact norm_nonneg _
      · exact begins.pointNorm
    honest := by
      rw [length, point, scale]
      split_ifs
      · exact le_rfl
      · exact begins.honest
    alternate := by
      rw [successes, failures]
      split_ifs
      · exact .inl rfl
      · exact .inr rfl
    slow := (State.slow_advance_le ..).trans begins.slow_lt
    slowFresh := (State.slowFresh_advance_le ..).trans begins.slowFresh_lt }

/-- Larger scales make the scaled length longer, while the stored one stays. -/
theorem refresh (begins : Begins n given s) (square : jacobian.IsSquare n)
    (measured : columnNorms jacobian n = .ok columns) :
    Begins n (given ++ [jacobian]) (s.linearized.refresh jacobian columns) ∧
      List.Forall₂ (· ≤ ·) s.scale (s.linearized.refresh jacobian columns).scale := by
  have many : columns.length = n := (columns_nonneg square measured).1
  have units := units_refresh begins.units many
  obtain ⟨grows, above⟩ := forall₂_zipWith (f := max) le_max_left le_max_right
    (begins.units.length.trans many.symm)
  have covers : ∀ old ∈ given ++ [jacobian],
      Covers (s.scale.zipWith (fun d c => max d c) columns) n old := by
    intro old member
    rcases List.mem_append.mp member with earlier | last
    · obtain ⟨lengths, known, below⟩ := begins.covers old earlier
      exact ⟨lengths, known, forall₂_le_trans below grows⟩
    · obtain rfl := List.mem_singleton.mp last
      exact ⟨columns, measured, above⟩
  have longer : scaledNorm s.scale s.point ≤ scaledNorm (s.scale.zipWith max columns) s.point :=
    scaledNorm_mono (fun c member => (begins.units.pos member).le) grows s.point
  exact ⟨{ begins with
    model := ⟨square, units.length⟩
    units
    covers
    honest := begins.honest.trans longer }, grows⟩

end Begins

/-! ## Whole searches -/

/-- All matrices that the problem gives have `n` rows of `n` entries. -/
def Problem.IsSquare (p : Problem F) (n : Nat) : Prop :=
  ∀ y before jacobian after, y.length = n →
    (p.jacobian y).run.run before = (.ok jacobian, after) → jacobian.IsSquare n

/-- A search that ends because it has converged does so after a trial. -/
theorem Stops.exists_tries (stops : Stops settings p s before o last)
    (converged : o.termination = .converged) :
    ∃ residual after, Tries p s before residual after ∧
      (s.tried residual).verdict settings s.trial.size = some .converged ∧
      o = (s.tried residual).outcome .converged := by
  cases stops with
  | mismatch _ _ ended | nonFinite _ _ _ _ _ ended =>
    subst ended
    cases converged
  | verdict tries found ended =>
    subst ended
    cases converged
    exact ⟨_, _, tries, found, rfl⟩

variable [ExactRoots F]

theorem Moves.begins (moves : Moves settings p s before new t after) (square : p.IsSquare n)
    (tolerance : 0 ≤ settings.tolerance) (begins : Begins n given s) :
    Begins n (given ++ new) t ∧ List.Forall₂ (· ≤ ·) s.scale t.scale := by
  have scale (residual : List F) : (s.tried residual).scale = s.scale := State.scale_advance ..
  cases moves with
  | correct _ open_ _ =>
    have next := (begins.tried _).begins tolerance open_
    rw [List.append_nil, State.scale_correct, scale]
    exact ⟨next.correct _ _, List.forall₂_refl _⟩
  | refresh _ open_ _ obtained _ measured =>
    have next := (begins.tried _).begins tolerance open_
    rw [next.point] at measured
    rw [← scale]
    exact next.refresh (square _ _ _ _ next.point obtained) measured

theorem Visited.begins (visited : Visited settings p x journal given s after)
    (square : p.IsSquare x.length) (tolerance : 0 ≤ settings.tolerance)
    (factor : 0 < settings.factor) : Begins x.length given s := by
  induction visited with
  | start _ _ _ _ obtained _ measured =>
    exact .start factor rfl (square _ _ _ _ rfl obtained) measured
  | step _ moves ih => exact (moves.begins square tolerance ih).1

/-- **The bounds of a search.** In every iteration the scales are positive, no smaller than before
and no smaller than the columns were long of any matrix so far; the step is no longer than the
radius, which is not negative; the stored length of the point does not exceed its scaled length; one
of the counts of successes and failures in a row is zero, and those of iterations without progress
do not pass their limits. So where a search has converged, the radius is within the tolerance of the
scaled length of the point, by the scales and the point that it ends with. -/
theorem search_bounds (square : p.IsSquare x.length) (tolerance : 0 ≤ settings.tolerance)
    (factor : 0 < settings.factor) (journal : Journal F) :
    (∀ given s before, Visited settings p x journal given s before →
      (search settings p x).run.run journal = (run settings p s).run.run before ∧
      Sound x.length given s ∧ s.trial.size ≤ s.radius ∧
      (∀ residual after, Tries p s before residual after →
        Sound x.length given (s.tried residual)) ∧
      ∀ new t after, Moves settings p s before new t after →
        List.Forall₂ (· ≤ ·) s.scale t.scale) ∧
    ∀ o last, (search settings p x).run.run journal = (.ok o, last) →
      o.termination = .converged →
      ∃ given s before residual after, Visited settings p x journal given s before ∧
        Tries p s before residual after ∧ o = (s.tried residual).outcome .converged ∧
        (s.tried residual).radius ≤
          settings.tolerance * scaledNorm (s.tried residual).scale (s.tried residual).point := by
  constructor
  · intro given s before visited
    have begins := visited.begins square tolerance factor
    exact ⟨visited.run_eq, begins.toSound, begins.size_le,
      fun residual _ _ => begins.tried residual,
      fun _ _ _ moves => (moves.begins square tolerance begins).2⟩
  · intro o last ran converged
    rcases stays_or_exists_last ran with stays | ⟨given, s, before, visited, stops⟩
    · exact absurd converged stays.evaluations.2
    · obtain ⟨residual, after, tries, found, rfl⟩ := stops.exists_tries converged
      have sound := (visited.begins square tolerance factor).tried residual
      exact ⟨given, s, before, residual, after, visited, tries, rfl,
        (State.le_of_converged found).trans (mul_le_mul_of_nonneg_left sound.honest tolerance)⟩

/-- A residual that is one everywhere, with the slope one. -/
noncomputable def level : Problem ℝ := .ofFunctions (fun _ => .ok [1]) fun _ => .ok [[1]]

/-- A search from one tries a single step, of length one, and halves the radius. With a tolerance of
one it has converged then. -/
theorem search_bounds_level : level.IsSquare 1 ∧ (0 : ℝ) ≤ 1 ∧ (0 : ℝ) < 100 ∧
    ∃ o last, (search ⟨1, 10, 100⟩ level [1]).run.run #[] = (.ok o, last) ∧
      ∃ given s before residual after, Visited ⟨1, 10, 100⟩ level [1] #[] given s before ∧
        Sound 1 given s ∧ Tries level s before residual after ∧
        o = (s.tried residual).outcome .converged ∧
        (s.tried residual).radius ≤
          1 * scaledNorm (s.tried residual).scale (s.tried residual).point := by
  have square : level.IsSquare 1 := by
    intro y before jacobian after _ obtained
    cases obtained
    exact isSquare_one 1
  let settings : Settings ℝ := ⟨1, 10, 100⟩
  let s : State ℝ := .start settings [1] [1] [[1]] [|1|]
  have unit : scaledNorm [1] [(1 : ℝ)] = 1 := by
    simp [scaledNorm, stretch, norm_singleton]
  have start : s = { residual := [1], jacobian := [[1]], scale := [1], point := [1]
                     norm := 1, pointNorm := 1, radius := 100 } := by
    norm_num [s, settings, State.start, unit, norm_singleton]
  have newton : s.newtonStep? = some [-1] := by
    have finite (c : ℝ) : isFinite c = true := rfl
    have unrounded : (epsilon : ℝ) = 0 := rfl
    rw [start]
    norm_num [LinearModel.newtonStep?, Rows.solve?, Rows.factor?, largest, finite, unrounded,
      Arith.abs_eq, eliminateColumns, choosePivot, largerHead?, PartialRow.head,
      PartialRow.toFactored, PartialRow.eliminate, Factors.solve, Factors.forward,
      Factors.backward, Factors.subtractProducts]
  have trial : s.trial = { step := [-1], size := 1, point := [0] } := by
    have scaled : scaledNorm s.scale [-1] = 1 := by
      simp [start, scaledNorm, stretch, norm_singleton]
    have inside : norm (stretch s.scale [-1]) ≤ s.radius := by
      rw [scaledNorm] at scaled
      rw [scaled, start]
      norm_num
    have step : s.dogleg s.radius = [-1] := by
      rw [LinearModel.dogleg, newton]
      exact if_pos inside
    rw [State.trial, step, scaled, start]
    norm_num
  have full : relativeReduction (1 : ℝ) 0 = 1 := by
    norm_num [relativeReduction, powInt_eq]
  have verdict : (s.tried [1]).verdict settings s.trial.size = some .converged := by
    rw [State.tried, trial, start]
    norm_num [State.assess, State.advance, State.adjust, State.keep, State.countSlow,
      State.evaluated, State.nextRadius, State.verdict, settings, Assessment.isFailure,
      Assessment.isAccepted, ExactRoots.decimal, norm_singleton, Rows.apply, full]
  have nonzero : (norm [(1 : ℝ)] == 0) = false := by
    norm_num [norm_singleton]
  have first : Visited settings level [1] #[] [[[1]]] s _ :=
    .start rfl rfl rfl nonzero rfl rfl (columnNorms_singleton 1)
  have tries (before : Journal ℝ) : Tries level s before [1] _ := ⟨_, rfl, rfl, rfl⟩
  have ran : (search settings level [1]).run.run #[] = _ := first.run_eq.trans (tries _).run_eq
  rw [onward, verdict] at ran
  have factor : 0 < settings.factor := by norm_num [settings]
  obtain ⟨bounds, honest⟩ := search_bounds (x := [1]) square zero_le_one factor #[]
  obtain ⟨given, s, before, residual, after, visited, tries, ended, below⟩ :=
    honest _ _ ran rfl
  exact ⟨square, zero_le_one, by norm_num, _, _, ran, given, s, before, residual, after, visited,
    (bounds given s before visited).2.1, tries, ended, below⟩

end RootSearch

end ImplicitDiff
