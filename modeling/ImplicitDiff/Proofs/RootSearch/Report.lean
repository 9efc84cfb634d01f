import Mathlib.Tactic
import ImplicitDiff.Proofs.RootSearch.Account

/-! # What a search reports

However a search ends, its outcome tells the truth: the residual is that of the point, the point is
the last of those that were kept, each of them with a shorter residual than the one before, and the
counters count. The one exception is a first point where the residual has the wrong length, since
then the norm is no number.
-/

namespace ImplicitDiff.RootSearch

open Arith

variable {F : Type} [Arith F]

section Unfit

variable {F : Type} {value : List F → List F} {n : Nat} {points : List (List F)}

/-- How many entries the first residual has that does not have `n`, of those at the points. -/
def firstUnfit (value : List F → List F) (n : Nat) (points : List (List F)) : Option Nat :=
  (points.map fun x => (value x).length).find? (· ≠ n)

theorem firstUnfit_eq_none (fits : ∀ x ∈ points, (value x).length = n) :
    firstUnfit value n points = none := by
  rw [firstUnfit, List.find?_eq_none, List.forall_mem_map]
  exact fun x member => by simp [fits x member]

theorem firstUnfit_concat (fits : ∀ x ∈ points, (value x).length = n) {x : List F}
    (unfit : (value x).length ≠ n) :
    firstUnfit value n (points ++ [x]) = some (value x).length := by
  have none := firstUnfit_eq_none fits
  unfold firstUnfit at *
  rw [List.map_append, List.find?_append, none, Option.none_or]
  exact List.find?_cons_of_pos (decide_eq_true unfit)

theorem firstUnfit_of_head {x : List F} (head : points.head? = some x)
    (unfit : (value x).length ≠ n) : firstUnfit value n points = some (value x).length := by
  obtain ⟨rest, rfl⟩ := List.head?_eq_some_iff.mp head
  exact List.find?_cons_of_pos (decide_eq_true unfit)

theorem length_of_firstUnfit_eq_none (fit : firstUnfit value n points = none) {x : List F}
    (member : x ∈ points) : (value x).length = n := by
  have each := List.find?_eq_none.mp fit _ (List.mem_map_of_mem member)
  simpa using each

/-- The residual has `n` entries at every one of the points. -/
def AllFit (value : List F → List F) (n : Nat) (points : List (List F)) : Prop :=
  ∀ x ∈ points, (value x).length = n

theorem allFit_iff : AllFit value n points ↔ firstUnfit value n points = none :=
  ⟨firstUnfit_eq_none, fun fit _ => length_of_firstUnfit_eq_none fit⟩

end Unfit

/-- An outcome is true to what happened in the search from `start`. -/
structure Report (settings : Settings F) (value : List F → List F) (start : List F) (c : Account F)
    (o : Outcome F) : Prop extends Confirms c value start o where
  norm_eq : (value start).length = start.length → o.norm = norm o.residual
  unfit : (value start).length ≠ start.length → o.point = start ∧ o.norm = nan ∧ o.iterations = 0
  jacobians_le : o.jacobians ≤ 1 + o.evaluations / 3
  zero_iff : o.termination = .zeroResidual ↔ (o.norm == 0) = true
  exhausted : o.termination = .budgetExhausted → settings.budget ≤ o.evaluations
  mismatch_iff (actual : Nat) : o.termination = .dimensionMismatch actual ↔
    firstUnfit value start.length c.tried = some actual

namespace State

variable {settings : Settings F} {s : State F} {size : F}

private theorem verdict_eq_zeroResidual_iff :
    s.verdict settings size = some .zeroResidual ↔ (s.norm == 0) = true := by
  unfold verdict
  split_ifs with zero <;> simp [zero]

theorem norm_of_verdict_eq_none (open_ : s.verdict settings size = none) :
    (s.norm == 0) = false := by
  unfold verdict at open_
  split_ifs at open_ with zero
  exact Bool.eq_false_iff.mpr zero

private theorem budget_le_of_verdict (found : s.verdict settings size = some .budgetExhausted) :
    settings.budget ≤ s.evaluations := by
  unfold verdict at found
  split_ifs at found <;> first | assumption | cases found

private theorem verdict_ne_dimensionMismatch (actual : Nat) :
    s.verdict settings size ≠ some (.dimensionMismatch actual) := by
  unfold verdict
  split_ifs <;> simp

end State

section Path

variable {settings : Settings F} {value : List F → List F} {start : List F} {c : Account F}
  {o : Outcome F}

private theorem Confirms.point_eq (confirms : Confirms c value start o) (none : o.iterations = 0) :
    o.point = start := by
  have empty : c.kept = [] := List.length_eq_zero_iff.mp (confirms.iterations ▸ none)
  have last := confirms.last
  rw [empty] at last
  exact (Option.some.inj last).symm

/-- The last point has a shorter residual than the first, if any was kept. -/
theorem Confirms.norm_lt [SoundComparisons F] (confirms : Confirms c value start o)
    (some : 0 < o.iterations) : norm (value o.point) < norm (value start) := by
  have transitive : Trans (Shortens value) (Shortens value) (Shortens value) :=
    ⟨fun first second => SoundComparisons.lt_trans second first⟩
  rw [confirms.iterations, List.length_pos_iff] at some
  have last := confirms.last
  rw [List.getLast?_cons_of_ne_nil some] at last
  exact List.rel_of_pairwise_cons confirms.descends.pairwise (List.mem_of_getLast? last)

/-- A search that kept a point made the residual shorter. -/
theorem Report.norm_lt [SoundComparisons F] (report : Report settings value start c o)
    (some : 0 < o.iterations) : o.norm < norm (value start) := by
  by_cases fits : (value start).length = start.length
  · rw [report.norm_eq fits, report.residual]
    exact report.toConfirms.norm_lt some
  · exact absurd (report.unfit fits).2.2 some.ne'

/-- No search makes the residual longer, unless it is no number to begin with. -/
theorem Report.norm_le [SoundComparisons F] (report : Report settings value start c o)
    (fits : (value start).length = start.length)
    (number : norm (value start) ≤ norm (value start)) : o.norm ≤ norm (value start) := by
  rcases Nat.eq_zero_or_pos o.iterations with none | some
  · rw [report.norm_eq fits, report.residual, report.point_eq none]
    exact number
  · exact SoundComparisons.le_of_lt (report.norm_lt some)

end Path

section Courses

variable {p : Problem F} {start : List F} {a : Answers p start.length} {settings : Settings F}
  {c : Account F} {s : State F} {events : Journal F} {o : Outcome F}

/-- An end at a state, for a reason that is not about lengths. -/
theorem Underway.report (underway : Underway start a c s) {reason : Termination}
    (rare : s.jacobians ≤ 1 + s.evaluations / 3)
    (zero : reason = .zeroResidual ↔ (s.norm == 0) = true)
    (exhausted : reason = .budgetExhausted → settings.budget ≤ s.evaluations)
    (other : ∀ actual, reason ≠ .dimensionMismatch actual) :
    Report settings a.value start c (s.outcome reason) where
  toConfirms := underway.confirms reason
  norm_eq _ := underway.norm_eq
  unfit unfit := absurd underway.fits_start unfit
  jacobians_le := rare
  zero_iff := zero
  exhausted := exhausted
  mismatch_iff actual := by
    rw [firstUnfit_eq_none underway.fits]
    exact ⟨fun ended => absurd ended (other actual), fun found => nomatch found⟩

/-- An end at a trial point where the residual has the wrong length. -/
theorem Underway.report_mismatch (underway : Underway start a c s)
    (rare : s.jacobians ≤ 1 + s.evaluations / 3) (nonzero : (s.norm == 0) = false) {x : List F}
    (unfit : (a.value x).length ≠ start.length) :
    Report settings a.value start (c.read (a.valueEvents x))
      (s.evaluated.outcome (.dimensionMismatch (a.value x).length)) := by
  rw [read_valueEvents]
  exact {
    toConfirms := (underway.confirms _).evaluated x
    norm_eq := fun _ => underway.norm_eq
    unfit := fun unfit => absurd underway.fits_start unfit
    jacobians_le := rare.trans (by gcongr; exact Nat.le_succ _)
    zero_iff := ⟨fun ended => (nomatch ended), fun zero => (nomatch zero.symm.trans nonzero)⟩
    exhausted := fun ended => (nomatch ended)
    mismatch_iff := fun actual => by
      rw [firstUnfit_concat underway.fits unfit, Option.some_inj]
      exact Termination.dimensionMismatch.injEq .. ▸ Iff.rfl }

variable [SoundComparisons F]

theorem Stop.report (stop : Stop a settings s events o) (underway : Underway start a c s)
    (spaced : Spaced 1 s) (nonzero : (s.norm == 0) = false) :
    Report settings a.value start (c.read events) o := by
  cases stop with
  | mismatch unfit =>
    rw [underway.shaped.point] at unfit
    exact underway.report_mismatch spaced.jacobians_le nonzero unfit
  | verdict fits found =>
    refine (underway.after fits).report spaced.after.jacobians_le ?_ ?_ ?_
    · rw [← State.verdict_eq_zeroResidual_iff, found, Option.some_inj]
    · rintro rfl
      exact State.budget_le_of_verdict found
    · rintro actual rfl
      exact State.verdict_ne_dimensionMismatch actual found
  | nonFinite goesOn failed _ =>
    have nonzero := State.norm_of_verdict_eq_none goesOn.open_
    rw [Account.read_append]
    refine ((underway.after goesOn.fits).linearized _).report
      (spaced.after.linearized failed).jacobians_le ⟨fun ended => (nomatch ended), fun zero => ?_⟩
      (fun ended => nomatch ended) fun actual ended => nomatch ended
    exact nomatch zero.symm.trans nonzero

omit [SoundComparisons F] in
theorem Step.nonzero (step : Step a settings s events t) : (t.norm == 0) = false := by
  cases step with
  | correct goesOn _ =>
    have same := congrArg Outcome.norm (congrFun (State.outcome_correct (a.after s) s.trial
      (a.assessed s)) .converged)
    exact (congrArg (· == 0) same).trans (State.norm_of_verdict_eq_none goesOn.open_)
  | refresh goesOn _ _ _ => exact State.norm_of_verdict_eq_none goesOn.open_

theorem Trace.report (trace : Trace a settings s events o) (square : a.IsSquare)
    (underway : Underway start a c s) (spaced : Spaced 1 s) (nonzero : (s.norm == 0) = false) :
    Report settings a.value start (c.read events) o := by
  induction trace generalizing c with
  | stop stop =>
    rw [Account.read_append]
    exact stop.report underway spaced nonzero
  | step step _ ih =>
    rw [Account.read_append]
    exact ih (underway.step square step) (spaced.step step) step.nonzero

omit [SoundComparisons F] in
/-- The account of a search at its first point. -/
theorem Confirms.atStart (value : List F → List F) (x : List F) (linearized : List (List F))
    (norm : F) (reason : Termination) :
    Confirms { tried := [x], linearized } value x
      (.atStart x (value x) norm linearized.length reason) where
  length := rfl
  residual := rfl
  last := rfl
  descends := .singleton x
  head_tried := rfl
  mem_tried := List.mem_singleton_self x
  evaluations := rfl
  jacobians := rfl
  iterations := rfl
  iterations_lt := Nat.one_pos

omit [SoundComparisons F] in
/-- The first state of a search that goes on from its first point. -/
theorem Underway.first (settings : Settings F) {columns : List F} (square : a.IsSquare)
    (fits : (a.value start).length = start.length)
    (measured : columnNorms (a.matrix start) start.length = .ok columns) :
    Underway start a { tried := [start], linearized := [start] }
      (.start settings start (a.value start) (a.matrix start) columns) where
  shaped := .start settings square fits measured
  norm_eq := rfl
  fits_start := fits
  fits := List.forall_mem_singleton.mpr fits
  confirms reason := .atStart a.value start [start] _ reason

omit [SoundComparisons F] in
/-- An end at the first point, for a reason that is not about lengths. -/
theorem report_atStart (fits : (a.value start).length = start.length)
    (linearized : List (List F)) (rare : linearized.length ≤ 1) {reason : Termination}
    (zero : reason = .zeroResidual ↔ (norm (a.value start) == 0) = true)
    (unspent : reason ≠ .budgetExhausted) (other : ∀ actual, reason ≠ .dimensionMismatch actual) :
    Report settings a.value start { tried := [start], linearized }
      (.atStart start (a.value start) (norm (a.value start)) linearized.length reason) where
  toConfirms := .atStart ..
  norm_eq _ := rfl
  unfit unfit := absurd fits unfit
  jacobians_le := rare.trans (Nat.le_add_right ..)
  zero_iff := zero
  exhausted ended := absurd ended unspent
  mismatch_iff actual := by
    rw [firstUnfit_eq_none (List.forall_mem_singleton.mpr fits)]
    exact ⟨fun ended => absurd ended (other actual), fun found => nomatch found⟩

/-- However a search goes, it reports what happened. -/
theorem Course.report (course : Course a settings start events o)
    (square : a.IsSquare) :
    Report settings a.value start (Journal.account events) o := by
  rw [Journal.account]
  cases course with
  | mismatch unfit ended =>
    subst ended
    rw [Account.read_append, read_valueEvents]
    have mark := SoundComparisons.nan_beq_zero (F := F)
    change Report settings a.value start { tried := [start] } _
    exact {
      toConfirms := .atStart a.value start [] nan _
      norm_eq := fun fits => absurd fits unfit
      unfit := fun _ => ⟨rfl, rfl, rfl⟩
      jacobians_le := Nat.zero_le _
      zero_iff := ⟨fun ended => (nomatch ended), fun zero => (nomatch zero.symm.trans mark)⟩
      exhausted := fun ended => (nomatch ended)
      mismatch_iff := fun actual => by
        have found := firstUnfit_concat (List.forall_mem_nil _) unfit
        rw [List.nil_append] at found
        rw [found, Option.some_inj]
        exact Termination.dimensionMismatch.injEq .. ▸ Iff.rfl }
  | nonFinite fits infinite ended =>
    subst ended
    rw [Account.read_append, read_valueEvents]
    have nonzero := SoundComparisons.beq_zero_of_not_finite infinite
    refine report_atStart fits [] (Nat.zero_le 1) ⟨fun ended => (nomatch ended), fun zero => ?_⟩
      (fun ended => nomatch ended) fun actual ended => nomatch ended
    exact nomatch zero.symm.trans nonzero
  | zero fits zero ended =>
    subst ended
    rw [Account.read_append, read_valueEvents]
    exact report_atStart fits [] (Nat.zero_le 1) ⟨fun _ => zero, fun _ => rfl⟩
      (fun ended => nomatch ended) fun actual ended => nomatch ended
  | nonFiniteMatrix fits nonzero ended =>
    subst ended
    rw [Account.read_append, Account.read_append, read_valueEvents, read_matrixEvents]
    refine report_atStart fits [start] le_rfl ⟨fun ended => (nomatch ended), fun zero => ?_⟩
      (fun ended => nomatch ended) fun actual ended => nomatch ended
    exact nomatch zero.symm.trans nonzero
  | run fits nonzero measured trace =>
    rw [Account.read_append, Account.read_append, read_valueEvents, read_matrixEvents]
    exact trace.report square (.first settings square fits measured) le_rfl nonzero

end Courses

/-- Functions answer each question the same way every time. -/
def Answers.ofFunctions {F : Type} (value : List F → List F) (matrix : List F → Rows F) (n : Nat) :
    Answers (.ofFunctions (fun x => .ok (value x)) fun x => .ok (matrix x)) n where
  value
  matrix
  valueNotes _ := #[]
  matrixNotes _ := #[]
  residual_yields {x} _ := (Yields.note (.evaluated x)).bind (.pure (value x))
  jacobian_yields {x} _ := (Yields.note (.linearized x)).bind (.pure (matrix x))
  ofEquations_valueNotes _ _ member := absurd member (Array.not_mem_empty _)
  ofEquations_matrixNotes _ _ member := absurd member (Array.not_mem_empty _)

/-- A search for a root of a function, with any square matrix in the place of its Jacobian, ends and
reports what happened. It does not make the residual longer, unless the length of the first residual
is no number or not asked for. -/
theorem search_reports [SoundComparisons F] (settings : Settings F) {value : List F → List F}
    {matrix : List F → Rows F} {start : List F}
    (square : ∀ x, x.length = start.length → (matrix x).IsSquare start.length) :
    ∃ events o,
      Yields (search settings (.ofFunctions (fun x => .ok (value x)) fun x => .ok (matrix x)) start)
        events o ∧
      Report settings value start (Journal.account events) o ∧
      o.evaluations = Journal.evaluations events ∧
      o.jacobians = Journal.linearizations events ∧
      (0 < o.iterations → o.norm < norm (value start)) ∧
      ((value start).length = start.length → norm (value start) ≤ norm (value start) →
        o.norm ≤ norm (value start)) := by
  have squareAnswers : (Answers.ofFunctions value matrix start.length).IsSquare :=
    fun x length _ => square x length
  obtain ⟨events, o, ran, course⟩ := exists_course squareAnswers settings
  have report := course.report squareAnswers
  refine ⟨events, o, ran, report, ?_, ?_, report.norm_lt, report.norm_le⟩
  · rw [report.evaluations, Journal.evaluations_eq]
  · rw [report.jacobians, Journal.linearizations_eq]

theorem isSquare_one {F : Type} (x : F) : Rows.IsSquare [[x]] 1 := by
  refine ⟨rfl, fun member => ?_⟩
  rw [List.mem_singleton.mp member]
  rfl

/-- A search on machine floats for the root of `x ↦ x * x - 2`, with a wrong Jacobian. -/
theorem search_reports_square_root :
    (∀ x : List Float, x.length = [1].length → Rows.IsSquare [[3]] ([1] : List Float).length) ∧
    ∃ events o,
      Yields (search ⟨1e-10, 1000, 100⟩ (.ofFunctions
        (fun x => .ok (x.map fun a => a * a - 2)) fun _ => .ok [[3]]) [1]) events o ∧
      Report ⟨1e-10, 1000, 100⟩ (fun x => x.map fun a => a * a - 2) [1] (Journal.account events) o ∧
      o.evaluations = Journal.evaluations events ∧
      o.jacobians = Journal.linearizations events ∧
      (0 < o.iterations → o.norm < norm [(1 * 1 - 2 : Float)]) ∧
      (1 = 1 → norm [(1 * 1 - 2 : Float)] ≤ norm [(1 * 1 - 2 : Float)] →
        o.norm ≤ norm [(1 * 1 - 2 : Float)]) :=
  ⟨fun _ _ => isSquare_one 3, search_reports ⟨1e-10, 1000, 100⟩ fun _ _ => isSquare_one 3⟩

/-- With two residuals for one unknown, the norm is no number, hence not at most that of the first
residual. -/
theorem norm_not_le_of_two_residuals : ∃ events o,
    Yields (search (F := Float) ⟨1e-10, 1000, 100⟩
      (.ofFunctions (fun _ => .ok [1, 2]) fun _ => .ok [[1]]) [0]) events o ∧
    ¬ o.norm ≤ norm ([1, 2] : List Float) := by
  have square : (Answers.ofFunctions (F := Float) (fun _ => [1, 2]) (fun _ => [[1]])
      ([0] : List Float).length).IsSquare := fun _ _ _ => isSquare_one 1
  obtain ⟨events, o, ran, course⟩ := exists_course square ⟨1e-10, 1000, 100⟩
  obtain ⟨-, mark, -⟩ := (course.report square).unfit (by decide)
  refine ⟨events, o, ran, fun le => ?_⟩
  rw [mark, Float.le_iff_unpack] at le
  cases le

end ImplicitDiff.RootSearch
