import Mathlib.Tactic
import ImplicitDiff.Proofs.RootSearch.Shape
import ImplicitDiff.RootSearch.Run

/-! # How a search proceeds

The answers of a problem need not depend on the point alone: a call may write to the journal, read
what is there, or end in a fault. For any problem, an iteration of a search either leads to a next
state, by a corrected or by a fresh matrix, or ends the search. The states in which a search begins
an iteration are those that a chain of iterations leads to. The rest of the search depends on the
state and the journal that it has reached, and a search that comes to an end has a last state, where
it stops.
-/

namespace ImplicitDiff.RootSearch

open Arith

variable {F : Type}

/-- What is noted of an outcome. -/
def Outcome.event (o : Outcome F) : Event F :=
  .stopped o.iterations o.evaluations o.jacobians o.termination

variable [Arith F]

/-! ## What a trial and a correction change -/

namespace State

variable (s : State F) (t : Trial F) (r : Assessment F)

@[simp] theorem jacobian_advance : (s.advance t r).jacobian = s.jacobian := by
  unfold advance keep
  split_ifs <;> rfl

@[simp] theorem scale_advance : (s.advance t r).scale = s.scale := by
  unfold advance keep
  split_ifs <;> rfl

@[simp] theorem jacobians_advance : (s.advance t r).jacobians = s.jacobians := by
  unfold advance keep
  split_ifs <;> rfl

@[simp] theorem failures_advance :
    (s.advance t r).failures = if r.isFailure then s.failures + 1 else 0 := by
  have adjusted : (s.adjust t r).failures = if r.isFailure then s.failures + 1 else 0 := rfl
  rw [← adjusted]
  unfold advance keep
  split <;> rfl

theorem point_advance :
    (s.advance t r).point = if r.isAccepted then t.point else s.point := by
  unfold advance keep
  split_ifs <;> rfl

theorem residual_advance :
    (s.advance t r).residual = if r.isAccepted then r.residual else s.residual := by
  unfold advance keep
  split_ifs <;> rfl

theorem norm_advance : (s.advance t r).norm = if r.isAccepted then r.norm else s.norm := by
  unfold advance keep
  split_ifs <;> rfl

theorem iterations_advance : (s.advance t r).iterations =
    if r.isAccepted then s.iterations + 1 else s.iterations := by
  unfold advance keep
  split_ifs <;> rfl

theorem outcome_correct : (s.correct t r).outcome = s.outcome := by
  unfold correct
  split <;> rfl

theorem failures_correct : (s.correct t r).failures = s.failures := by
  unfold correct
  split <;> rfl

theorem jacobians_correct : (s.correct t r).jacobians = s.jacobians := by
  unfold correct
  split <;> rfl

theorem scale_correct : (s.correct t r).scale = s.scale := by
  unfold correct
  split <;> rfl

theorem point_correct : (s.correct t r).point = s.point :=
  congrArg Outcome.point (congrFun (outcome_correct s t r) .converged)

private theorem norm_correct : (s.correct t r).norm = s.norm :=
  congrArg Outcome.norm (congrFun (outcome_correct s t r) .converged)

theorem residual_correct : (s.correct t r).residual = s.residual :=
  congrArg Outcome.residual (congrFun (outcome_correct s t r) .converged)

end State

variable {p : Problem F} {settings : Settings F} {x : List F} {s t : State F}
  {journal before middle after last : Journal F} {residual : List F} {given new : List (Rows F)}
  {o : Outcome F} {n : Nat}

/-! ## Iterations -/

/-- The state after the trial, up to its matrix and scales, given the residual there. -/
def State.tried (s : State F) (residual : List F) : State F :=
  s.advance s.trial (s.assess s.trial residual)

/-- What is noted of the trial. -/
def State.stepped (s : State F) (residual : List F) : Event F :=
  .stepped (s.tried residual).norm (s.assess s.trial residual).ratio (s.tried residual).radius
    (s.assess s.trial residual).isAccepted (s.tried residual).failures

/-- The residual at the trial point has the right length. -/
def Tries (p : Problem F) (s : State F) (before : Journal F) (residual : List F)
    (after : Journal F) : Prop :=
  ∃ middle, (p.residual s.trial.point).run.run before = (.ok residual, middle) ∧
    residual.length = s.point.length ∧ after = middle.push (s.stepped residual)

/-- An iteration leads to a next state, by a corrected matrix or by one that is obtained from the
problem. -/
inductive Moves (settings : Settings F) (p : Problem F) (s : State F) (before : Journal F) :
    List (Rows F) → State F → Journal F → Prop
  | correct {residual : List F} {after : Journal F} : Tries p s before residual after →
      (s.tried residual).verdict settings s.trial.size = none → (s.tried residual).failures ≠ 2 →
      Moves settings p s before [] ((s.tried residual).correct s.trial (s.assess s.trial residual))
        after
  | refresh {residual columns : List F} {middle after : Journal F} {jacobian : Rows F} :
      Tries p s before residual middle →
      (s.tried residual).verdict settings s.trial.size = none → (s.tried residual).failures = 2 →
      (p.jacobian (s.tried residual).point).run.run middle = (.ok jacobian, after) →
      jacobian.allFinite = true →
      columnNorms jacobian (s.tried residual).point.length = .ok columns →
      Moves settings p s before [jacobian] ((s.tried residual).linearized.refresh jacobian columns)
        after

/-- An iteration ends the search. -/
inductive Stops (settings : Settings F) (p : Problem F) (s : State F) (before : Journal F) :
    Outcome F → Journal F → Prop
  | mismatch {residual : List F} {after : Journal F} {o : Outcome F} :
      (p.residual s.trial.point).run.run before = (.ok residual, after) →
      residual.length ≠ s.point.length →
      o = s.evaluated.outcome (.dimensionMismatch residual.length) →
      Stops settings p s before o (after.push o.event)
  | verdict {residual : List F} {after : Journal F} {reason : Termination} {o : Outcome F} :
      Tries p s before residual after →
      (s.tried residual).verdict settings s.trial.size = some reason →
      o = (s.tried residual).outcome reason →
      Stops settings p s before o (after.push o.event)
  | nonFinite {residual : List F} {middle after : Journal F} {jacobian : Rows F} {o : Outcome F} :
      Tries p s before residual middle →
      (s.tried residual).verdict settings s.trial.size = none → (s.tried residual).failures = 2 →
      (p.jacobian (s.tried residual).point).run.run middle = (.ok jacobian, after) →
      jacobian.allFinite = false → o = (s.tried residual).linearized.outcome .nonFinite →
      Stops settings p s before o (after.push o.event)

/-- The search from `x` ends there. -/
inductive Stays (p : Problem F) (x : List F) (journal : Journal F) : Outcome F → Journal F → Prop
  | mismatch {residual : List F} {after : Journal F} {o : Outcome F} :
      (p.residual x).run.run journal = (.ok residual, after) → residual.length ≠ x.length →
      o = .atStart x residual nan 0 (.dimensionMismatch residual.length) →
      Stays p x journal o (after.push o.event)
  | nonFinite {residual : List F} {after : Journal F} {o : Outcome F} :
      (p.residual x).run.run journal = (.ok residual, after) → residual.length = x.length →
      isFinite (norm residual) = false → o = .atStart x residual (norm residual) 0 .nonFinite →
      Stays p x journal o (after.push o.event)
  | zero {residual : List F} {after : Journal F} {o : Outcome F} :
      (p.residual x).run.run journal = (.ok residual, after) → residual.length = x.length →
      isFinite (norm residual) = true → (norm residual == 0) = true →
      o = .atStart x residual (norm residual) 0 .zeroResidual →
      Stays p x journal o (after.push o.event)
  | nonFiniteMatrix {residual : List F} {middle after : Journal F} {jacobian : Rows F}
      {o : Outcome F} :
      (p.residual x).run.run journal = (.ok residual, middle) → residual.length = x.length →
      isFinite (norm residual) = true → (norm residual == 0) = false →
      (p.jacobian x).run.run middle = (.ok jacobian, after) → jacobian.allFinite = false →
      o = .atStart x residual (norm residual) 1 .nonFinite →
      Stays p x journal o (after.push o.event)

/-- The search from `x` begins an iteration in this state and with this journal, and has obtained
these matrices so far. -/
inductive Visited (settings : Settings F) (p : Problem F) (x : List F) (journal : Journal F) :
    List (Rows F) → State F → Journal F → Prop
  | start {residual columns : List F} {middle after : Journal F} {jacobian : Rows F} :
      (p.residual x).run.run journal = (.ok residual, middle) → residual.length = x.length →
      isFinite (norm residual) = true → (norm residual == 0) = false →
      (p.jacobian x).run.run middle = (.ok jacobian, after) → jacobian.allFinite = true →
      columnNorms jacobian x.length = .ok columns →
      Visited settings p x journal [jacobian] (.start settings x residual jacobian columns) after
  | step {given new : List (Rows F)} {s t : State F} {before after : Journal F} :
      Visited settings p x journal given s before → Moves settings p s before new t after →
      Visited settings p x journal (given ++ new) t after

/-! ## The rest of the run -/

theorem run_eq (settings : Settings F) (p : Problem F) (s : State F) : run settings p s = (do
    let t := s.trial
    let residual ← p.residual t.point
    if residual.length ≠ s.point.length then
      finish (s.evaluated.outcome (.dimensionMismatch residual.length))
    else
      let a := s.assess t residual
      let next := s.advance t a
      report next a
      match next.verdict settings t.size with
      | some reason => finish (next.outcome reason)
      | none =>
        if next.failures = 2 then
          let jacobian ← p.jacobian next.point
          if jacobian.allFinite then
            let columns ← columnNorms jacobian next.point.length
            run settings p (next.linearized.refresh jacobian columns)
          else finish (next.linearized.outcome .nonFinite)
        else run settings p (next.correct t a)) := by
  rw [run]
  congr 1
  funext residual
  split_ifs
  · rfl
  · dsimp only
    congr 1
    funext _
    split <;> rename_i h <;> rw [h]

/-- What follows a trial. -/
def onward (settings : Settings F) (p : Problem F) (s : State F) (residual : List F) :
    SearchM F (Outcome F) :=
  match (s.tried residual).verdict settings s.trial.size with
  | some reason => finish ((s.tried residual).outcome reason)
  | none =>
    if (s.tried residual).failures = 2 then do
      let jacobian ← p.jacobian (s.tried residual).point
      if jacobian.allFinite then
        let columns ← columnNorms jacobian (s.tried residual).point.length
        run settings p ((s.tried residual).linearized.refresh jacobian columns)
      else finish ((s.tried residual).linearized.outcome .nonFinite)
    else run settings p ((s.tried residual).correct s.trial (s.assess s.trial residual))

theorem Tries.run_eq (tries : Tries p s before residual after) :
    (run settings p s).run.run before = (onward settings p s residual).run.run after := by
  obtain ⟨middle, ran, fits, rfl⟩ := tries
  rw [RootSearch.run_eq, run_bind_of_ok ran, if_neg (not_not.mpr fits)]
  rfl

/-- The rest of a run depends on the state that it has reached. -/
theorem Moves.run_eq (moves : Moves settings p s before new t after) :
    (run settings p s).run.run before = (run settings p t).run.run after := by
  cases moves with
  | correct tries open_ few =>
    rw [tries.run_eq, onward, open_]
    dsimp only
    rw [if_neg few]
  | refresh tries open_ failed obtained finite measured =>
    rw [tries.run_eq, onward, open_]
    dsimp only
    rw [if_pos failed, run_bind_of_ok obtained, if_pos finite, run_ofExcept_bind measured]

/-- So does its end. -/
theorem Stops.run_eq (stops : Stops settings p s before o last) :
    (run settings p s).run.run before = (.ok o, last) := by
  cases stops with
  | mismatch ran unfit ended =>
    subst ended
    rw [RootSearch.run_eq, run_bind_of_ok ran, if_pos unfit]
    rfl
  | verdict tries found ended =>
    subst ended
    rw [tries.run_eq, onward, found]
    rfl
  | nonFinite tries open_ failed obtained infinite ended =>
    subst ended
    rw [tries.run_eq, onward, open_]
    dsimp only
    rw [if_pos failed, run_bind_of_ok obtained, infinite]
    rfl

theorem Stays.search_eq (stays : Stays p x journal o last) :
    (search settings p x).run.run journal = (.ok o, last) := by
  cases stays with
  | mismatch ran unfit ended =>
    subst ended
    rw [search, run_bind_of_ok ran]
    dsimp only
    rw [if_pos unfit]
    rfl
  | nonFinite ran fits infinite ended =>
    subst ended
    rw [search, run_bind_of_ok ran]
    dsimp only
    rw [if_neg (not_not.mpr fits), infinite]
    rfl
  | zero ran fits finite zero ended =>
    subst ended
    rw [search, run_bind_of_ok ran]
    dsimp only
    rw [if_neg (not_not.mpr fits), finite, zero]
    rfl
  | nonFiniteMatrix ran fits finite nonzero obtained infinite ended =>
    subst ended
    rw [search, run_bind_of_ok ran]
    dsimp only
    rw [if_neg (not_not.mpr fits), finite, nonzero]
    change (p.jacobian x >>= _).run.run _ = _
    rw [run_bind_of_ok obtained, infinite]
    rfl

theorem Visited.run_eq (visited : Visited settings p x journal given s after) :
    (search settings p x).run.run journal = (run settings p s).run.run after := by
  induction visited with
  | start ran fits finite nonzero obtained entries measured =>
    rw [search, run_bind_of_ok ran]
    dsimp only
    rw [if_neg (not_not.mpr fits), finite, nonzero]
    change (p.jacobian _ >>= _).run.run _ = _
    rw [run_bind_of_ok obtained, if_pos entries, run_ofExcept_bind measured]
  | step _ moves ih => rw [ih, moves.run_eq]

/-! ## The last state -/

/-- An iteration that goes on evaluates the residual once and leaves some of the budget. -/
theorem Moves.evaluations (moves : Moves settings p s before new t after) :
    t.evaluations = s.evaluations + 1 ∧ t.evaluations < settings.budget := by
  cases moves with
  | correct _ goesOn _ | refresh _ goesOn _ _ _ _ =>
    have left := State.evaluations_lt_of_verdict goesOn
    unfold State.tried at *
    simp only [State.evaluations_advance, State.evaluations_linearized, State.evaluations_refresh,
      State.evaluations_correct] at left ⊢
    exact ⟨trivial, left⟩

/-- The last iteration evaluates the residual once, too. -/
theorem Stops.evaluations (stops : Stops settings p s before o last) :
    o.evaluations = s.evaluations + 1 := by
  cases stops with
  | mismatch _ _ ended =>
    subst ended
    rfl
  | verdict _ _ ended | nonFinite _ _ _ _ _ ended =>
    subst ended
    exact State.evaluations_advance ..

/-- What is left of the budget shrinks at every step. -/
theorem Moves.left_lt (moves : Moves settings p s before new t after) :
    settings.budget - t.evaluations < settings.budget - s.evaluations := by
  obtain ⟨once, left⟩ := moves.evaluations
  omega

omit [Arith F] in
theorem eq_of_finish {ended : Outcome F} (ran : (finish ended).run.run before = (.ok o, last)) :
    o = ended ∧ last = before.push o.event := by
  cases ran
  exact ⟨rfl, rfl⟩

/-- An iteration of a run that comes to an end leads on or ends it. -/
theorem moves_or_stops (ran : (run settings p s).run.run before = (.ok o, last)) :
    (∃ new t after, Moves settings p s before new t after) ∨ Stops settings p s before o last := by
  have whole := ran
  rw [RootSearch.run_eq] at ran
  obtain ⟨residual, middle, tried, ran⟩ := run_bind_eq_ok_iff.mp ran
  by_cases fits : residual.length = s.point.length
  case neg =>
    rw [if_pos fits] at ran
    obtain ⟨ended, rfl⟩ := eq_of_finish ran
    exact .inr (.mismatch tried fits ended)
  have tries : Tries p s before residual _ := ⟨middle, tried, fits, rfl⟩
  rw [tries.run_eq, onward] at whole
  cases verdict : (s.tried residual).verdict settings s.trial.size with
  | some reason =>
    rw [verdict] at whole
    obtain ⟨ended, rfl⟩ := eq_of_finish whole
    exact .inr (.verdict tries verdict ended)
  | none =>
    by_cases failed : (s.tried residual).failures = 2
    case neg => exact .inl ⟨_, _, _, .correct tries verdict failed⟩
    rw [verdict] at whole
    dsimp only at whole
    rw [if_pos failed] at whole
    obtain ⟨jacobian, after, obtained, whole⟩ := run_bind_eq_ok_iff.mp whole
    cases entries : jacobian.allFinite with
    | false =>
      rw [entries] at whole
      obtain ⟨ended, rfl⟩ := eq_of_finish whole
      exact .inr (.nonFinite tries verdict failed obtained entries ended)
    | true =>
      rw [if_pos entries] at whole
      obtain ⟨columns, again, measured, -⟩ := run_bind_eq_ok_iff.mp whole
      exact .inl ⟨_, _, _, .refresh tries verdict failed obtained entries
        (congrArg Prod.fst measured)⟩

/-- A run that comes to an end has a last state. -/
theorem Visited.exists_last {given : List (Rows F)} {s : State F} {after : Journal F}
    (visited : Visited settings p x journal given s after)
    (ran : (run settings p s).run.run after = (.ok o, last)) :
    ∃ given t before, Visited settings p x journal given t before ∧
      Stops settings p t before o last := by
  rcases moves_or_stops ran with ⟨new, t, next, moves⟩ | stops
  · exact (visited.step moves).exists_last (moves.run_eq.symm.trans ran)
  · exact ⟨given, s, after, visited, stops⟩
termination_by settings.budget - s.evaluations
decreasing_by exact moves.left_lt

/-- A search that comes to an end does so at its first point or in an iteration. -/
theorem stays_or_exists_last (ran : (search settings p x).run.run journal = (.ok o, last)) :
    Stays p x journal o last ∨ ∃ given s before, Visited settings p x journal given s before ∧
      Stops settings p s before o last := by
  have whole := ran
  obtain ⟨residual, middle, asked, ran⟩ := run_bind_eq_ok_iff.mp ran
  dsimp only at ran
  by_cases fits : residual.length = x.length
  case neg =>
    rw [if_pos fits] at ran
    obtain ⟨ended, rfl⟩ := eq_of_finish ran
    exact .inl (.mismatch asked fits ended)
  rw [if_neg (not_not.mpr fits)] at ran
  cases finite : isFinite (norm residual) with
  | false =>
    rw [finite] at ran
    obtain ⟨ended, rfl⟩ := eq_of_finish ran
    exact .inl (.nonFinite asked fits finite ended)
  | true =>
    cases zero : norm residual == 0 with
    | true =>
      rw [finite, zero] at ran
      obtain ⟨ended, rfl⟩ := eq_of_finish ran
      exact .inl (.zero asked fits finite zero ended)
    | false =>
      rw [finite, zero] at ran
      obtain ⟨jacobian, after, obtained, ran⟩ := run_bind_eq_ok_iff.mp ran
      cases entries : jacobian.allFinite with
      | false =>
        rw [entries] at ran
        obtain ⟨ended, rfl⟩ := eq_of_finish ran
        exact .inl (.nonFiniteMatrix asked fits finite zero obtained entries ended)
      | true =>
        rw [if_pos entries] at ran
        obtain ⟨columns, again, measured, ran⟩ := run_bind_eq_ok_iff.mp ran
        have first : Visited settings p x journal _ _ _ :=
          .start asked fits finite zero obtained entries (congrArg Prod.fst measured)
        exact .inr (first.exists_last (first.run_eq.symm.trans whole))

/-- A search that ends at its first point evaluates the residual once. -/
theorem Stays.evaluations (stays : Stays p x journal o last) :
    o.evaluations = 1 ∧ o.termination ≠ .converged := by
  cases stays with
  | mismatch _ _ ended | nonFinite _ _ _ ended | zero _ _ _ _ ended
  | nonFiniteMatrix _ _ _ _ _ _ ended =>
    subst ended
    exact ⟨rfl, nofun⟩

/-! ## What every iteration keeps -/

namespace State

variable {r : Trial F} {b : Assessment F} {jacobian : Rows F} {columns : List F}

/-- The vectors and the matrix of a state are those of `n` equations in `n` unknowns. -/
structure Sized (s : State F) (n : Nat) : Prop where
  model : s.IsSquare n
  point : s.point.length = n
  residual : s.residual.length = n

namespace Sized

theorem length_trial (sized : s.Sized n) : s.trial.point.length = n := by
  change (s.point.zipWith _ (s.dogleg s.radius)).length = n
  rw [List.length_zipWith, sized.point, sized.model.length_dogleg, Nat.min_self]

theorem tried (sized : s.Sized n) (fits : residual.length = s.point.length) :
    (s.tried residual).Sized n where
  model := sized.model.congr (jacobian_advance ..) (scale_advance ..)
  point := by
    rw [State.tried, point_advance]
    split_ifs
    · exact sized.length_trial
    · exact sized.point
  residual := by
    rw [State.tried, residual_advance]
    split_ifs
    · exact fits.trans sized.point
    · exact sized.residual

theorem correct (sized : s.Sized n) (r : Trial F) (b : Assessment F) : (s.correct r b).Sized n where
  model := by
    unfold State.correct
    split_ifs
    · exact ⟨isSquare_addOuter sized.model.jacobian _ _, sized.model.scale⟩
    · exact ⟨sized.model.jacobian, sized.model.scale⟩
  point := (congrArg _ (point_correct ..)).trans sized.point
  residual := (congrArg _ (residual_correct ..)).trans sized.residual

theorem refresh (sized : s.Sized n) (square : jacobian.IsSquare n)
    (measured : columnNorms jacobian n = .ok columns) :
    (s.linearized.refresh jacobian columns).Sized n where
  model := by
    cases (columnNorms_eq square).symm.trans measured
    refine ⟨square, ?_⟩
    change (s.scale.zipWith _ _).length = n
    rw [List.length_zipWith, sized.model.scale, List.length_map, List.length_range, Nat.min_self]
  point := sized.point
  residual := sized.residual

theorem start (settings : Settings F) (fits : residual.length = x.length)
    (square : jacobian.IsSquare x.length) (measured : columnNorms jacobian x.length = .ok columns) :
    (State.start settings x residual jacobian columns).Sized x.length where
  model := by
    cases (columnNorms_eq square).symm.trans measured
    exact ⟨square, by simp [State.start]⟩
  point := rfl
  residual := fits

end Sized

end State

theorem Moves.sized (moves : Moves settings p s before new t after) (sized : s.Sized n)
    (square : ∀ jacobian ∈ new, jacobian.IsSquare n) : t.Sized n := by
  cases moves with
  | correct tries _ _ =>
    obtain ⟨-, -, fits, -⟩ := tries
    exact (sized.tried fits).correct _ _
  | refresh tries _ _ _ _ measured =>
    obtain ⟨-, -, fits, -⟩ := tries
    have next := sized.tried fits
    rw [next.point] at measured
    exact next.refresh (square _ List.mem_cons_self) measured

/-- As long as the problem gives square matrices, all sizes agree. -/
theorem Visited.sized (visited : Visited settings p x journal given s before)
    (square : ∀ jacobian ∈ given, jacobian.IsSquare x.length) : s.Sized x.length := by
  induction visited with
  | start _ fits _ _ _ _ measured =>
    exact .start settings fits (square _ List.mem_cons_self) measured
  | step _ moves ih =>
    obtain ⟨earlier, last⟩ := List.forall_mem_append.mp square
    exact moves.sized (ih earlier) last

/-- What a state knows of its point is what the problem said there: the residual, and its norm. -/
theorem Visited.obtained (visited : Visited settings p x journal given s before) :
    s.norm = norm s.residual ∧
      ∃ first second, (p.residual s.point).run.run first = (.ok s.residual, second) := by
  induction visited with
  | start ran _ _ _ _ _ _ => exact ⟨rfl, _, _, ran⟩
  | @step given new s t before after _ moves ih =>
    have known {residual : List F} {middle : Journal F} (tries : Tries p s before residual middle) :
        (s.tried residual).norm = norm (s.tried residual).residual ∧ ∃ first second,
          (p.residual (s.tried residual).point).run.run first =
            (.ok (s.tried residual).residual, second) := by
      obtain ⟨_, ran, -, -⟩ := tries
      rw [State.tried, State.norm_advance, State.residual_advance, State.point_advance]
      split_ifs
      · exact ⟨rfl, _, _, ran⟩
      · exact ih
    cases moves with
    | correct tries _ _ =>
      rw [State.norm_correct, State.residual_correct, State.point_correct]
      exact known tries
    | refresh tries _ _ _ _ _ => exact known tries

/-! ## Searches that end -/

/-- The problem answers wherever it is asked for `n` unknowns, and gives square matrices. -/
structure Problem.IsTotal (p : Problem F) (n : Nat) : Prop where
  residual (y : List F) (before : Journal F) : y.length = n →
    ∃ values after, (p.residual y).run.run before = (.ok values, after)
  jacobian (y : List F) (before : Journal F) : y.length = n →
    ∃ rows after, (p.jacobian y).run.run before = (.ok rows, after) ∧ rows.IsSquare n

/-- An iteration leads on or ends. -/
theorem Problem.IsTotal.progress (total : p.IsTotal n) (sized : s.Sized n) (settings : Settings F)
    (before : Journal F) :
    (∃ new t after, Moves settings p s before new t after ∧ t.Sized n) ∨
      ∃ o last, Stops settings p s before o last := by
  obtain ⟨residual, middle, ran⟩ := total.residual s.trial.point before sized.length_trial
  by_cases fits : residual.length = s.point.length
  case neg => exact .inr ⟨_, _, .mismatch ran fits rfl⟩
  have tries : Tries p s before residual _ := ⟨middle, ran, fits, rfl⟩
  have next := sized.tried fits
  cases open_ : (s.tried residual).verdict settings s.trial.size with
  | some reason => exact .inr ⟨_, _, .verdict tries open_ rfl⟩
  | none =>
    by_cases failed : (s.tried residual).failures = 2
    case neg => exact .inl ⟨_, _, _, .correct tries open_ failed, next.correct _ _⟩
    obtain ⟨rows, after, obtained, square⟩ := total.jacobian _ _ next.point
    cases finite : rows.allFinite with
    | false => exact .inr ⟨_, _, .nonFinite tries open_ failed obtained finite rfl⟩
    | true =>
      have measured := columnNorms_eq square
      exact .inl ⟨_, _, _, .refresh tries open_ failed obtained finite (next.point ▸ measured),
        next.refresh square measured⟩

theorem Problem.IsTotal.exists_run {s : State F} (total : p.IsTotal n) (sized : s.Sized n)
    (settings : Settings F) (before : Journal F) :
    ∃ o last, (run settings p s).run.run before = (.ok o, last) := by
  rcases total.progress sized settings before with ⟨new, t, after, moves, next⟩ | ⟨o, last, stops⟩
  · obtain ⟨o, last, ran⟩ := total.exists_run next settings after
    exact ⟨o, last, moves.run_eq.trans ran⟩
  · exact ⟨o, last, stops.run_eq⟩
termination_by settings.budget - s.evaluations
decreasing_by exact moves.left_lt

/-- Every search ends if the problem answers. -/
theorem Problem.IsTotal.exists_search (total : p.IsTotal x.length) (settings : Settings F)
    (journal : Journal F) : ∃ o last, (search settings p x).run.run journal = (.ok o, last) := by
  obtain ⟨residual, middle, ran⟩ := total.residual x journal rfl
  by_cases fits : residual.length = x.length
  case neg => exact ⟨_, _, (Stays.mismatch ran fits rfl).search_eq⟩
  cases finite : isFinite (norm residual) with
  | false => exact ⟨_, _, (Stays.nonFinite ran fits finite rfl).search_eq⟩
  | true =>
    cases zero : norm residual == 0 with
    | true => exact ⟨_, _, (Stays.zero ran fits finite zero rfl).search_eq⟩
    | false =>
      obtain ⟨rows, after, obtained, square⟩ := total.jacobian x middle rfl
      cases entries : rows.allFinite with
      | false =>
        exact ⟨_, _, (Stays.nonFiniteMatrix ran fits finite zero obtained entries rfl).search_eq⟩
      | true =>
        have measured := columnNorms_eq square
        have first : Visited settings p x journal _ _ _ :=
          .start ran fits finite zero obtained entries measured
        obtain ⟨o, last, ended⟩ :=
          total.exists_run (.start settings fits square measured) settings after
        exact ⟨o, last, first.run_eq.trans ended⟩

/-! ## The budget -/

theorem Visited.evaluations (visited : Visited settings p x journal given s before) :
    0 < s.evaluations ∧ s.evaluations < max settings.budget 2 := by
  cases visited with
  | start => exact ⟨Nat.one_pos, lt_max_of_lt_right Nat.one_lt_two⟩
  | step _ moves =>
    obtain ⟨once, left⟩ := moves.evaluations
    exact ⟨once ▸ Nat.succ_pos _, lt_max_of_lt_left left⟩

/-- A search evaluates the residual again exactly if it iterates. -/
theorem evaluations_of_search (ran : (search settings p x).run.run journal = (.ok o, last)) :
    o.evaluations ≤ max settings.budget 2 ∧
      (1 < o.evaluations ↔ ∃ given s before, Visited settings p x journal given s before) := by
  rcases stays_or_exists_last ran with stays | ⟨given, s, before, visited, stops⟩
  · have once := stays.evaluations.1
    refine ⟨once ▸ le_max_of_le_right one_le_two, fun more => absurd once more.ne', ?_⟩
    rintro ⟨given, s, before, visited⟩
    obtain ⟨_, t, _, reached, stops⟩ := visited.exists_last (visited.run_eq.symm.trans ran)
    have some := reached.evaluations.1
    have more := stops.evaluations
    omega
  · obtain ⟨some, left⟩ := visited.evaluations
    have once := stops.evaluations
    exact ⟨once ▸ left, fun _ => ⟨given, s, before, visited⟩, fun _ => by omega⟩

end ImplicitDiff.RootSearch
