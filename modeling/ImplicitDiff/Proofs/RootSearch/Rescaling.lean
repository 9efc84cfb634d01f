import Mathlib.Tactic
import ImplicitDiff.Proofs.Dense.Scaling
import ImplicitDiff.Proofs.RootSearch.Budget

/-! # The units of the unknowns

A search measures the unknowns by scales that it takes from the columns of the Jacobian. If the
unknowns are given in other units, the scales change with them, so that in scaled variables nothing
changes: all lengths, the radius, the steps taken and the reasons to stop are the same, and the
points differ by the units alone. Every part of an iteration commutes with the change of units, so
whole searches do.
-/

namespace ImplicitDiff

open Arith

variable {F : Type} [ExactOrderedField F] {e : List F} {n : Nat}

namespace LinearModel

variable {m : LinearModel F}

/-- The model of the same equations in other units. -/
def rescale (e : List F) (m : LinearModel F) : LinearModel F :=
  { m with jacobian := m.jacobian.scaleColumns e, scale := stretch e m.scale }

private theorem IsSquare.newtonStep?_rescale [ExactRoots F] (unrounded : (epsilon : F) = 0)
    (square : m.IsSquare n) (units : Units e n) :
    (m.rescale e).newtonStep? = m.newtonStep?.map (shrink e) :=
  square.jacobian.solve?_scaleColumns unrounded units _

/-- A vector in scaled variables, brought back to the units. -/
theorem shrink_rescale (e v : List F) (m : LinearModel F) :
    shrink (m.rescale e).scale v = shrink e (shrink m.scale v) :=
  (shrink_by_stretch ..).trans (shrink_comm ..)

/-- A step has the same scaled variables in all units. -/
theorem stretch_rescale (units : Units e n) (m : LinearModel F) {v : List F}
    (length : v.length = n) : stretch (m.rescale e).scale (shrink e v) = stretch m.scale v := by
  rw [rescale, stretch_stretch, units.stretch_shrink length.le]

theorem IsSquare.gradient_rescale (square : m.IsSquare n) (units : Units e n) :
    (m.rescale e).gradient = m.gradient := by
  have length := square.jacobian.length_applyTranspose m.residual
  change shrink (stretch e m.scale) ((m.jacobian.scaleColumns e).applyTranspose m.residual) = _
  rw [square.jacobian.applyTranspose_scaleColumns units, shrink_by_stretch,
    units.shrink_stretch length.le]
  rfl

private theorem IsSquare.apply_rescale (square : m.IsSquare n) (units : Units e n) {v : List F}
    (length : v.length = n) :
    (m.rescale e).jacobian.apply (shrink (m.rescale e).scale v) =
      m.jacobian.apply (shrink m.scale v) := by
  rw [shrink_rescale]
  exact units.apply_scaleColumns (square.length_shrink length).le _

private theorem IsSquare.steepestDistance_rescale (square : m.IsSquare n) (units : Units e n) :
    (m.rescale e).steepestDistance = m.steepestDistance := by
  unfold steepestDistance
  rw [square.gradient_rescale units, square.apply_rescale units square.length_gradient]

theorem IsSquare.bentStep_rescale (square : m.IsSquare n) (units : Units e n) (radius : F)
    (target : Option (List F)) :
    (m.rescale e).bentStep radius target = shrink e (m.bentStep radius target) := by
  unfold bentStep
  rw [square.gradient_rescale units, square.steepestDistance_rescale units]
  split_ifs
  · cases target with
    | some z => exact shrink_rescale ..
    | none =>
      apply List.ext_getElem
      · simp [rescale]
      · intro i _ _
        simp [rescale, shrink]
  · exact shrink_rescale ..

/-- The dogleg step is the same step in all units. -/
theorem IsSquare.dogleg_rescale [ExactRoots F] (unrounded : (epsilon : F) = 0)
    (square : m.IsSquare n) (units : Units e n) (radius : F) :
    (m.rescale e).dogleg radius = shrink e (m.dogleg radius) := by
  unfold dogleg
  rw [square.newtonStep?_rescale unrounded units]
  cases found : m.newtonStep? with
  | none => exact square.bentStep_rescale units radius none
  | some p =>
    dsimp only [Option.map_some]
    rw [m.stretch_rescale units (square.length_newtonStep found),
      square.bentStep_rescale units]
    split_ifs <;> rfl

end LinearModel

namespace RootSearch

/-- The step and its point in other units. -/
def Trial.rescale (e : List F) (t : Trial F) : Trial F :=
  { t with step := shrink e t.step, point := shrink e t.point }

/-- The outcome of the same search in other units. -/
def Outcome.rescale (e : List F) (o : Outcome F) : Outcome F :=
  { o with point := shrink e o.point }

namespace State

/-- The state of the same search in other units. -/
def rescale (e : List F) (s : State F) : State F :=
  { s with toLinearModel := s.toLinearModel.rescale e, point := shrink e s.point }

variable {s : State F} {t : Trial F} {a : Assessment F}

private theorem outcome_rescale (e : List F) (s : State F) (reason : Termination) :
    (s.rescale e).outcome reason = (s.outcome reason).rescale e := rfl

theorem verdict_rescale (e : List F) (settings : Settings F) (s : State F) (size : F) :
    (s.rescale e).verdict settings size = s.verdict settings size := rfl

theorem scaledNorm_rescale (units : Units e n) (m : LinearModel F) {v : List F}
    (length : v.length = n) :
    scaledNorm (m.rescale e).scale (shrink e v) = scaledNorm m.scale v := by
  rw [scaledNorm, m.stretch_rescale units length]
  rfl

private theorem add_shrink (e x p : List F) :
    (shrink e x).zipWith (fun x p => x + p) (shrink e p) =
      shrink e (x.zipWith (fun x p => x + p) p) := by
  apply List.ext_getElem
  · simp only [List.length_zipWith, length_shrink]
    omega
  · intro i _ _
    simp only [shrink, List.getElem_zipWith]
    exact (add_div ..).symm

/-- The trial leads to the same point. -/
theorem trial_rescale [ExactRoots F] (unrounded : (epsilon : F) = 0) (units : Units e n)
    (square : s.IsSquare n) : (s.rescale e).trial = s.trial.rescale e := by
  have step : (s.rescale e).dogleg (s.rescale e).radius = shrink e (s.dogleg s.radius) :=
    square.dogleg_rescale unrounded units s.radius
  have size := scaledNorm_rescale units s.toLinearModel (square.length_dogleg s.radius)
  have point := add_shrink e s.point (s.dogleg s.radius)
  unfold trial
  rw [step]
  exact congrArg₂ (Trial.mk _) size point

/-- The same residual compares alike. -/
theorem assess_rescale (units : Units e n) (length : t.step.length = n) (s : State F)
    (residual : List F) :
    (s.rescale e).assess (t.rescale e) residual = s.assess t residual := by
  have model : (s.rescale e).jacobian.apply (t.rescale e).step = s.jacobian.apply t.step :=
    units.apply_scaleColumns length.le s.jacobian
  unfold assess
  rw [model]
  rfl

private theorem advance_rescale (units : Units e n) (length : t.point.length = n) (s : State F)
    (a : Assessment F) :
    (s.rescale e).advance (t.rescale e) a = (s.advance t a).rescale e := by
  have size : scaledNorm ((s.rescale e).adjust (t.rescale e) a).scale (t.rescale e).point =
      scaledNorm (s.adjust t a).scale t.point := scaledNorm_rescale units s.toLinearModel length
  unfold advance keep
  split_ifs
  · rw [size]
    rfl
  · rfl

/-- The correction along the step is the same correction. -/
theorem correct_rescale (units : Units e n) (s : State F) (t : Trial F) (a : Assessment F) :
    (s.rescale e).correct (t.rescale e) a = (s.correct t a).rescale e := by
  have direction : (s.rescale e).scale.zipWith
      (fun d p => d * (d * p / (t.rescale e).size) / (t.rescale e).size) (t.rescale e).step =
      stretch e (s.scale.zipWith (fun d p => d * (d * p / t.size) / t.size) t.step) := by
    apply List.ext_getElem
    · simp [rescale, LinearModel.rescale, Trial.rescale]
    · intro i _ inside
      rw [length_stretch] at inside
      have nonzero := units.ne_zero (i := i) (by omega)
      simp only [rescale, LinearModel.rescale, Trial.rescale, stretch, shrink,
        List.getElem_zipWith]
      field_simp
  have jacobian : addOuter ((s.rescale e).scale.zipWith
      (fun d p => d * (d * p / (t.rescale e).size) / (t.rescale e).size) (t.rescale e).step)
      (s.rescale e).jacobian a.mismatch = Rows.scaleColumns e (addOuter
        (s.scale.zipWith (fun d p => d * (d * p / t.size) / t.size) t.step) s.jacobian
        a.mismatch) := by
    rw [direction]
    exact addOuter_scaleColumns ..
  unfold correct
  by_cases learns : isFinite a.norm ∧ 0 < t.size
  · have known : isFinite a.norm ∧ 0 < (t.rescale e).size := learns
    rw [if_pos learns, if_pos known]
    exact congrArg (fun jacobian => { s.rescale e with jacobian, fresh := false }) jacobian
  · have unknown : ¬(isFinite a.norm ∧ 0 < (t.rescale e).size) := learns
    rw [if_neg learns, if_neg unknown]
    rfl

/-- A fresh Jacobian in other units has columns in these units. -/
theorem refresh_rescale (units : Units e n) (s : State F) (jacobian : Rows F) (columns : List F) :
    (s.rescale e).refresh (jacobian.scaleColumns e) (stretch e columns) =
      (s.refresh jacobian columns).rescale e := by
  have scale : (stretch e s.scale).zipWith (fun d c => max d c) (stretch e columns) =
      stretch e (s.scale.zipWith (fun d c => max d c) columns) := by
    apply List.ext_getElem
    · simp
    · intro i _ inside
      rw [length_stretch] at inside
      have unit : i < e.length := by omega
      have positive := units.pos (List.getElem_mem unit)
      simp only [stretch, List.getElem_zipWith]
      exact (mul_max_of_nonneg _ _ positive.le).symm
  exact congrArg (fun scale => { s.rescale e with
    jacobian := jacobian.scaleColumns e, fresh := true, scale }) scale

/-- Columns that are not zero are the scales. -/
theorem scales_eq {columns : List F} (nonzero : ∀ d ∈ columns, d ≠ 0) :
    columns.map (fun d => if d == 0 then 1 else d) = columns := by
  have same : ∀ d ∈ columns, (if d == 0 then 1 else d) = id d := fun d member =>
    if_neg fun zero => nonzero d member (beq_iff_eq.mp zero)
  rw [List.map_congr_left same, List.map_id]

/-- The first state in other units, if every unknown has a scale of its own there. -/
theorem start_rescale (units : Units e n) (settings : Settings F) {point columns : List F}
    (length : point.length = n) (nonzero : ∀ d ∈ columns, d ≠ 0) (residual : List F)
    (jacobian : Rows F) :
    start settings (shrink e point) residual (jacobian.scaleColumns e) (stretch e columns) =
      (start settings point residual jacobian columns).rescale e := by
  have size : scaledNorm (stretch e columns) (shrink e point) = scaledNorm columns point := by
    rw [scaledNorm, stretch_stretch, units.stretch_shrink length.le]
    rfl
  unfold start
  rw [scales_eq nonzero, scales_eq (units.stretch_ne_zero nonzero)]
  dsimp only
  rw [size]
  rfl

end State

section Run

variable [ExactRoots F] {value : List F → List F} {matrix : List F → Rows F}
  {settings : Settings F} {s t : State F} {events : Journal F} {o : Outcome F}

/-- The answers of the problem in other units. -/
def Answers.inUnits (e : List F) (value : List F → List F) (matrix : List F → Rows F) (n : Nat) :=
  Answers.ofFunctions (fun z => value (stretch e z))
    (fun z => (matrix (stretch e z)).scaleColumns e) n

omit [ExactRoots F] in
theorem Answers.IsSquare.inUnits (units : Units e n)
    (square : (Answers.ofFunctions value matrix n).IsSquare) :
    (Answers.inUnits e value matrix n).IsSquare := by
  intro x length fits
  exact (square _ (units.length_stretch_eq length) fits).scaleColumns units

namespace Shaped

/-- A trial leads to the same point, so the residual there is the same. -/
theorem trial_rescale (unrounded : (epsilon : F) = 0) (units : Units e n)
    (shaped : Shaped (.ofFunctions value matrix n) s) :
    (s.rescale e).trial = s.trial.rescale e ∧
      (Answers.inUnits e value matrix n).value (s.rescale e).trial.point =
        value s.trial.point := by
  have trial := State.trial_rescale unrounded units shaped.model
  refine ⟨trial, ?_⟩
  rw [trial]
  exact congrArg value (units.stretch_shrink shaped.length_trial.le)

/-- It has the right length in all units. -/
theorem fits_rescale_iff (unrounded : (epsilon : F) = 0) (units : Units e n)
    (shaped : Shaped (.ofFunctions value matrix n) s) :
    ((Answers.inUnits e value matrix n).value (s.rescale e).trial.point).length =
        (s.rescale e).point.length ↔
      (value s.trial.point).length = s.point.length := by
  have point : (s.rescale e).point.length = s.point.length :=
    (units.length_shrink_eq shaped.point).trans shaped.point.symm
  rw [(shaped.trial_rescale unrounded units).2, point]

/-- It compares alike, and the state after the trial is the same up to the units. -/
theorem after_rescale (unrounded : (epsilon : F) = 0) (units : Units e n)
    (shaped : Shaped (.ofFunctions value matrix n) s) :
    (Answers.inUnits e value matrix n).assessed (s.rescale e) =
      (Answers.ofFunctions value matrix n).assessed s ∧
    (Answers.inUnits e value matrix n).after (s.rescale e) =
      ((Answers.ofFunctions value matrix n).after s).rescale e := by
  obtain ⟨trial, residual⟩ := shaped.trial_rescale unrounded units
  have step : s.trial.step.length = n := shaped.model.length_dogleg s.radius
  have assessed : (Answers.inUnits e value matrix n).assessed (s.rescale e) =
      (Answers.ofFunctions value matrix n).assessed s := by
    rw [Answers.assessed, residual, trial]
    exact State.assess_rescale units step s _
  refine ⟨assessed, ?_⟩
  rw [Answers.after, assessed, trial]
  exact State.advance_rescale units shaped.length_trial s _

omit [ExactRoots F] in
/-- The sizes are the same in all units. -/
theorem inUnits (units : Units e n) (shaped : Shaped (.ofFunctions value matrix n) s) :
    Shaped (.inUnits e value matrix n) (s.rescale e) := by
  have point : (s.rescale e).point.length = n := units.length_shrink_eq shaped.point
  have scale : (s.rescale e).scale.length = n := units.length_stretch_eq shaped.model.scale
  have residual : (Answers.inUnits e value matrix n).value (s.rescale e).point = value s.point :=
    congrArg value (units.stretch_shrink shaped.point.le)
  exact ⟨⟨shaped.model.jacobian.scaleColumns units, scale⟩, point,
    shaped.residual.trans residual.symm, residual ▸ shaped.fits⟩

omit [ExactRoots F] in
/-- A fresh matrix is the same up to the units. -/
theorem matrix_rescale (units : Units e n) (shaped : Shaped (.ofFunctions value matrix n) s) :
    (Answers.inUnits e value matrix n).matrix (s.rescale e).point =
      (matrix s.point).scaleColumns e :=
  congrArg (fun x => (matrix x).scaleColumns e) (units.stretch_shrink shaped.point.le)

/-- Its columns are as long as the units say. -/
theorem columnNorms_rescale (units : Units e n) (shaped : Shaped (.ofFunctions value matrix n) s)
    (square : (Answers.ofFunctions value matrix n).IsSquare) {columns : List F}
    (measured : columnNorms (matrix s.point) s.point.length = .ok columns) :
    columnNorms ((Answers.inUnits e value matrix n).matrix (s.rescale e).point)
      (s.rescale e).point.length = .ok (stretch e columns) := by
  have point : (s.rescale e).point.length = n := units.length_shrink_eq shaped.point
  have fresh : (matrix s.point).IsSquare n := square s.point shaped.point shaped.fits
  rw [shaped.point] at measured
  rw [shaped.matrix_rescale units, point, columnNorms_scaleColumns fresh units, measured]
  rfl

end Shaped

/-- A search that goes on does so in all units. -/
theorem GoesOn.rescale (unrounded : (epsilon : F) = 0) (units : Units e n)
    (shaped : Shaped (.ofFunctions value matrix n) s)
    (goesOn : GoesOn (.ofFunctions value matrix n) settings s) :
    GoesOn (.inUnits e value matrix n) settings (s.rescale e) := by
  obtain ⟨trial, -⟩ := shaped.trial_rescale unrounded units
  obtain ⟨-, after⟩ := shaped.after_rescale unrounded units
  refine ⟨(shaped.fits_rescale_iff unrounded units).mpr goesOn.fits, ?_⟩
  rw [after, trial]
  exact (State.verdict_rescale ..).trans goesOn.open_

/-- An iteration that leads on does so in all units. -/
theorem Step.rescale (unrounded : (epsilon : F) = 0) (units : Units e n)
    (shaped : Shaped (.ofFunctions value matrix n) s)
    (square : (Answers.ofFunctions value matrix n).IsSquare)
    (step : Step (.ofFunctions value matrix n) settings s events t) :
    ∃ events, Step (.inUnits e value matrix n) settings (s.rescale e) events (t.rescale e) := by
  obtain ⟨trial, -⟩ := shaped.trial_rescale unrounded units
  obtain ⟨assessed, after⟩ := shaped.after_rescale unrounded units
  cases step with
  | correct goesOn few =>
    have step := Step.correct (goesOn.rescale unrounded units shaped) (after ▸ few)
    rw [after, trial, assessed, State.correct_rescale units] at step
    exact ⟨_, step⟩
  | @refresh columns goesOn failed _ measured =>
    have next := shaped.after goesOn.fits
    have matrices := next.matrix_rescale units
    have lengths := next.columnNorms_rescale units square measured
    rw [← after] at matrices lengths
    have step := Step.refresh (goesOn.rescale unrounded units shaped) (after ▸ failed)
      (Rows.allFinite_eq _) lengths
    rw [matrices, after] at step
    rw [← State.refresh_rescale units]
    exact ⟨_, step⟩

/-- The last iteration is the last in all units. -/
theorem Stop.rescale (unrounded : (epsilon : F) = 0) (units : Units e n)
    (shaped : Shaped (.ofFunctions value matrix n) s)
    (stop : Stop (.ofFunctions value matrix n) settings s events o) :
    ∃ events, Stop (.inUnits e value matrix n) settings (s.rescale e) events (o.rescale e) := by
  obtain ⟨trial, residual⟩ := shaped.trial_rescale unrounded units
  obtain ⟨-, after⟩ := shaped.after_rescale unrounded units
  have fits_iff := shaped.fits_rescale_iff unrounded units
  cases stop with
  | mismatch unfit =>
    have stop : Stop (.inUnits e value matrix n) settings (s.rescale e) _ _ :=
      .mismatch (mt fits_iff.mp unfit)
    rw [residual] at stop
    exact ⟨_, stop⟩
  | @verdict reason fits found =>
    have found : ((Answers.inUnits e value matrix n).after (s.rescale e)).verdict settings
        (s.rescale e).trial.size = some reason := by
      rw [after, trial]
      exact (State.verdict_rescale ..).trans found
    have stop := Stop.verdict (fits_iff.mpr fits) found
    rw [after, State.outcome_rescale] at stop
    exact ⟨_, stop⟩
  | nonFinite _ _ infinite => cases infinite.symm.trans (Rows.allFinite_eq _)

/-- The iterations lead to the same outcome in all units. -/
theorem Trace.rescale (unrounded : (epsilon : F) = 0) (units : Units e n)
    (square : (Answers.ofFunctions value matrix n).IsSquare)
    (trace : Trace (.ofFunctions value matrix n) settings s events o)
    (shaped : Shaped (.ofFunctions value matrix n) s) :
    ∃ events, Trace (.inUnits e value matrix n) settings (s.rescale e) events (o.rescale e) := by
  induction trace with
  | stop stop =>
    obtain ⟨_, stop⟩ := stop.rescale unrounded units shaped
    exact ⟨_, .stop stop⟩
  | step step _ ih =>
    obtain ⟨_, trace⟩ := ih (shaped.step square step)
    obtain ⟨_, step⟩ := step.rescale unrounded units shaped square
    exact ⟨_, .step step trace⟩

end Run

/-- A column with an entry that is not zero has a length. -/
theorem columnNorms_ne_zero [ExactRoots F] {a : Rows F} (square : a.IsSquare n)
    (nonzero : ∀ j < n, ∃ row ∈ a, row.getD j 0 ≠ 0) {lengths : List F}
    (measured : columnNorms a n = .ok lengths) : ∀ d ∈ lengths, d ≠ 0 := by
  cases (columnNorms_eq square).symm.trans measured
  rw [List.forall_mem_map]
  intro j inside zero
  obtain ⟨row, member, entry⟩ := nonzero j (List.mem_range.mp inside)
  exact entry (norm_eq_zero_iff.mp zero _ (List.mem_map_of_mem member))

section Search

variable [ExactRoots F] {value : List F → List F} {matrix : List F → Rows F} {start : List F}

omit [ExactRoots F] in
/-- The first residual is the same in all units, and so is its length. -/
theorem value_inUnits (units : Units e start.length) (value : List F → List F)
    (matrix : List F → Rows F) :
    (Answers.inUnits e value matrix start.length).value (shrink e start) = value start :=
  congrArg value (units.stretch_shrink le_rfl)

/-- Searches that go on from their first point end alike in all units. -/
theorem Departs.ends_alike (departs : Departs value matrix start)
    (unrounded : (epsilon : F) = 0) (settings : Settings F)
    (square : ∀ x, x.length = start.length → (matrix x).IsSquare start.length)
    (columns : ∀ j < start.length, ∃ row ∈ matrix start, row.getD j 0 ≠ 0)
    (units : Units e start.length) :
    ∃ events events' o,
      Yields (search settings
        (.ofFunctions (fun x => .ok (value x)) fun x => .ok (matrix x)) start) events o ∧
      Yields (search settings
        (.ofFunctions (fun z => .ok (value (stretch e z)))
          fun z => .ok ((matrix (stretch e z)).scaleColumns e)) (shrink e start)) events'
        (o.rescale e) := by
  let answers := Answers.ofFunctions value matrix start.length
  let others := Answers.inUnits e value matrix (shrink e start).length
  have squareAnswers : answers.IsSquare := fun x length _ => square x length
  obtain ⟨lengths, measured⟩ : ∃ lengths, columnNorms (matrix start) start.length = .ok lengths :=
    ⟨_, columnNorms_eq (square start rfl)⟩
  have shaped := Shaped.start (a := answers) settings squareAnswers departs.fits measured
  obtain ⟨events, o, ran, trace⟩ := exists_trace shaped squareAnswers settings
  obtain ⟨events', following⟩ := trace.rescale unrounded units squareAnswers shaped
  have residual : others.value (shrink e start) = value start := value_inUnits units value matrix
  have first : State.start settings (shrink e start) (others.value (shrink e start))
      (others.matrix (shrink e start)) (stretch e lengths) =
      (State.start settings start (answers.value start) (answers.matrix start) lengths).rescale
        e := by
    have fresh : others.matrix (shrink e start) = (matrix start).scaleColumns e :=
      shaped.matrix_rescale units
    rw [residual, fresh]
    exact State.start_rescale units settings rfl
      (columnNorms_ne_zero (square start rfl) columns measured) _ _
  have onward := following.run_yields (shaped.inUnits units) (squareAnswers.inUnits units)
  rw [← first] at onward
  have departing : Departs others.value others.matrix (shrink e start) := by
    refine ⟨?_, ExactRoots.isFinite_eq _, residual ▸ departs.nonzero, Rows.allFinite_eq _⟩
    rw [residual, (units.length_shrink_eq rfl)]
    exact departs.fits
  have measuring := shaped.columnNorms_rescale units squareAnswers measured
  exact ⟨_, _, o, departs.search_yields (a := answers) measured ran,
    departing.search_yields (a := others) measuring onward⟩

/-- **The units of the unknowns do not matter.** With the bound for rounding errors at zero, and if
no column of the first Jacobian is zero, a search in other units ends like the search itself, at the
same point in these units. -/
theorem search_rescale (unrounded : (epsilon : F) = 0) (settings : Settings F)
    (square : ∀ x, x.length = start.length → (matrix x).IsSquare start.length)
    (columns : ∀ j < start.length, ∃ row ∈ matrix start, row.getD j 0 ≠ 0)
    (units : Units e start.length) :
    ∃ events events' o,
      Yields (search settings
        (.ofFunctions (fun x => .ok (value x)) fun x => .ok (matrix x)) start) events o ∧
      Yields (search settings
        (.ofFunctions (fun z => .ok (value (stretch e z)))
          fun z => .ok ((matrix (stretch e z)).scaleColumns e)) (shrink e start)) events'
        (o.rescale e) := by
  let answers := Answers.ofFunctions value matrix start.length
  let others := Answers.inUnits e value matrix (shrink e start).length
  have length : (shrink e start).length = start.length := units.length_shrink_eq rfl
  have residual : others.value (shrink e start) = value start := value_inUnits units value matrix
  by_cases fits : (value start).length = start.length
  case neg =>
    refine ⟨_, _, _, search_yields_of_unfit (a := answers) settings fits rfl,
      search_yields_of_unfit (a := others) settings ?_ ?_⟩
    · rw [residual, length]
      exact fits
    · rw [residual]
      rfl
  have finite (a : F) : isFinite a = true := ExactRoots.isFinite_eq a
  by_cases zero : norm (value start) == 0
  · refine ⟨_, _, _, search_yields_of_zero (a := answers) settings fits (finite _) zero rfl,
      search_yields_of_zero (a := others) settings ?_ (finite _) ?_ ?_⟩
    · rw [residual, length]
      exact fits
    · rw [residual]
      exact zero
    · rw [residual]
      rfl
  · have departs : Departs value matrix start :=
      ⟨fits, finite _, Bool.eq_false_iff.mpr zero, Rows.allFinite_eq _⟩
    exact departs.ends_alike unrounded settings square columns units

end Search

/-- The search for `x₀² = 2` and `x₀ x₁ = 3` on the real numbers, with `x₀` in thirds and `x₁` in
fifths. -/
theorem search_rescale_product :
    let value (x : List ℝ) := [x.getD 0 0 * x.getD 0 0 - 2, x.getD 0 0 * x.getD 1 0 - 3]
    let matrix (x : List ℝ) := [[2 * x.getD 0 0, 0], [x.getD 1 0, x.getD 0 0]]
    (epsilon : ℝ) = 0 ∧ (∀ x, x.length = 2 → Rows.IsSquare (matrix x) 2) ∧
    (∀ j < 2, ∃ row ∈ matrix [1, 1], row.getD j 0 ≠ 0) ∧ Units ([3, 5] : List ℝ) 2 ∧
    ∃ events events' o,
      Yields (search ⟨1e-10, 1000, 100⟩
        (.ofFunctions (fun x => .ok (value x)) fun x => .ok (matrix x)) [1, 1]) events o ∧
      Yields (search ⟨1e-10, 1000, 100⟩
        (.ofFunctions (fun z => .ok (value (stretch [3, 5] z)))
          fun z => .ok (Rows.scaleColumns [3, 5] (matrix (stretch [3, 5] z))))
        (shrink [3, 5] [1, 1])) events' (o.rescale [3, 5]) := by
  intro value matrix
  have square (x : List ℝ) (_ : x.length = 2) : Rows.IsSquare (matrix x) 2 :=
    ⟨rfl, by simp [matrix]⟩
  have columns (j : Nat) (inside : j < 2) : ∃ row ∈ matrix [1, 1], row.getD j 0 ≠ 0 := by
    refine ⟨[1, 1], by simp [matrix], ?_⟩
    obtain rfl | rfl : j = 0 ∨ j = 1 := by omega
    · exact one_ne_zero
    · exact one_ne_zero
  have units : Units ([3, 5] : List ℝ) 2 := ⟨rfl, by simp⟩
  exact ⟨rfl, square, columns, units,
    search_rescale rfl ⟨1e-10, 1000, 100⟩ square columns units⟩

end RootSearch

end ImplicitDiff
