import Mathlib.Tactic
import ImplicitDiff.Log
import ImplicitDiff.Proofs.Comparisons
import ImplicitDiff.Proofs.RootSearch.Iteration

/-! # What a journal tells of a search

The points at which the equations were asked for and the points that were kept can be read off a
journal. Here it is shown of every iteration that this account and the state of the search agree,
that a point is kept only if its residual is shorter than the one before, and that a Jacobian is
asked for only after three residuals since the last one.
-/

namespace ImplicitDiff

variable {F : Type}

/-- The points that a search came by, each in the order of the search. -/
structure Account (F : Type) where
  /-- The points at which the residual was asked for. -/
  tried : List (List F) := []
  /-- The points at which the Jacobian was asked for. -/
  linearized : List (List F) := []
  /-- The points that were kept. The first point is not among them. -/
  kept : List (List F) := []

namespace Account

/-- The account after one more event. A step is to the point that was tried last. -/
def add (c : Account F) : Event F → Account F
  | .evaluated x => { c with tried := c.tried ++ [x] }
  | .linearized x => { c with linearized := c.linearized ++ [x] }
  | .stepped _ _ _ accepted _ =>
    if accepted then { c with kept := c.kept ++ c.tried.getLast?.toList } else c
  | _ => c

/-- The account after the events of a journal. -/
def read (c : Account F) (journal : Journal F) : Account F := journal.toList.foldl add c

theorem read_append (c : Account F) (journal more : Journal F) :
    c.read (journal ++ more) = (c.read journal).read more := by
  rw [read, Array.toList_append, List.foldl_append]
  rfl

/-- What comes from the equations counts for nothing. -/
theorem read_notes (c : Account F) {notes : Journal F} (only : ∀ e ∈ notes, e.isOfEquations) :
    c.read notes = c := by
  obtain ⟨notes⟩ := notes
  simp only [List.mem_toArray] at only
  change notes.foldl add c = c
  induction notes with
  | nil => rfl
  | cons e notes ih =>
    rw [List.forall_mem_cons] at only
    cases e with
    | called | wrote => exact ih only.2
    | _ => cases only.1

theorem length_read (field : Account F → List (List F)) {counts : Event F → Bool}
    (one : ∀ c e, (field (add c e)).length = (field c).length + if counts e then 1 else 0)
    (c : Account F) (journal : Journal F) :
    (field (c.read journal)).length = (field c).length + journal.countP counts := by
  obtain ⟨events⟩ := journal
  rw [List.countP_toArray]
  change (field (events.foldl add c)).length = _
  induction events generalizing c with
  | nil => rfl
  | cons e events ih => rw [List.foldl_cons, ih, one, List.countP_cons, Nat.add_assoc, Nat.add_comm
      (events.countP counts)]

end Account

/-- The account of a journal. -/
def Journal.account (journal : Journal F) : Account F := Account.read {} journal

theorem Journal.evaluations_eq (journal : Journal F) :
    Journal.evaluations journal = (Journal.account journal).tried.length := by
  rw [evaluations, ← Nat.zero_add (Array.countP ..)]
  refine (Account.length_read Account.tried (fun c e => ?_) {} journal).symm
  cases e with
  | evaluated x => exact List.length_append
  | stepped _ _ _ accepted _ => cases accepted <;> rfl
  | _ => rfl

theorem Journal.linearizations_eq (journal : Journal F) :
    Journal.linearizations journal = (Journal.account journal).linearized.length := by
  rw [linearizations, ← Nat.zero_add (Array.countP ..)]
  refine (Account.length_read Account.linearized (fun c e => ?_) {} journal).symm
  cases e with
  | linearized x => exact List.length_append
  | stepped _ _ _ accepted _ => cases accepted <;> rfl
  | _ => rfl

namespace RootSearch

open Arith

section Read

variable {p : Problem F} {n : Nat} (a : Answers p n) (c : Account F)

theorem read_valueEvents (x : List F) :
    c.read (a.valueEvents x) = { c with tried := c.tried ++ [x] } := by
  rw [Answers.valueEvents, Account.read_append, Account.read_notes _ (a.ofEquations_valueNotes x)]
  rfl

theorem read_matrixEvents (x : List F) :
    c.read (a.matrixEvents x) = { c with linearized := c.linearized ++ [x] } := by
  rw [Answers.matrixEvents, Account.read_append, Account.read_notes _ (a.ofEquations_matrixNotes x)]
  rfl

theorem read_trialEvents [Arith F] (s : State F) : c.read (a.trialEvents s) =
    { c with
      tried := c.tried ++ [s.trial.point]
      kept := if (a.assessed s).isAccepted then c.kept ++ [s.trial.point] else c.kept } := by
  rw [Answers.trialEvents, Account.read_append, read_valueEvents]
  change (if (a.assessed s).isAccepted then _ else _ : Account F) = _
  rw [List.getLast?_append]
  split_ifs <;> rfl

end Read

variable [Arith F]

/-- A kept point has a shorter residual. If the residual is not shorter, its ratio is a negative
number by a positive one. -/
theorem norm_lt_of_isAccepted [SoundComparisons F] {s : State F} {t : Trial F} {residual : List F}
    (accepted : (s.assess t residual).isAccepted = true) : norm residual < s.norm := by
  by_contra longer
  obtain ⟨promised, ratio⟩ : ∃ promised : F, (s.assess t residual).ratio =
      if 0 < promised then (if norm residual < s.norm then _ else -1) / promised else 0 := ⟨_, rfl⟩
  have least : 0.0001 ≤ (s.assess t residual).ratio := of_decide_eq_true accepted
  rw [ratio, if_neg longer] at least
  split_ifs at least with above
  · exact SoundComparisons.not_le_neg_one_div above least
  · exact SoundComparisons.not_le_zero least

/-- The residual at the second point is shorter than at the first. -/
def Shortens (value : List F → List F) (x y : List F) : Prop := norm (value y) < norm (value x)

/-- An account confirms what an outcome says. -/
structure Confirms (c : Account F) (value : List F → List F) (start : List F) (o : Outcome F) :
    Prop where
  length : o.point.length = start.length
  residual : o.residual = value o.point
  last : (start :: c.kept).getLast? = some o.point
  descends : (start :: c.kept).IsChain (Shortens value)
  head_tried : c.tried.head? = some start
  mem_tried : o.point ∈ c.tried
  evaluations : o.evaluations = c.tried.length
  jacobians : o.jacobians = c.linearized.length
  iterations : o.iterations = c.kept.length
  iterations_lt : o.iterations < o.evaluations

/-- Of the evaluations of the residual, three are set aside for each Jacobian but the first, and
those of the failures in a row, if they are few, for the next one. -/
def Spaced (few : Nat) (s : State F) : Prop :=
  3 * s.jacobians + (if s.failures ≤ few then s.failures + 1 else 0) ≤ s.evaluations + 3

variable {p : Problem F}

/-- A state that a search from `start` reaches, with the account up to there. -/
structure Underway (start : List F) (a : Answers p start.length) (c : Account F) (s : State F) :
    Prop where
  shaped : Shaped a s
  norm_eq : s.norm = norm s.residual
  fits_start : (a.value start).length = start.length
  fits : ∀ x ∈ c.tried, (a.value x).length = start.length
  confirms (reason : Termination) : Confirms c a.value start (s.outcome reason)

variable {start : List F} {a : Answers p start.length} {c : Account F} {s t : State F}
  {settings : Settings F} {events : Journal F}

/-- What a search would end with after a trial whose point is kept. -/
theorem outcome_after_of_accepted (accepted : (a.assessed s).isAccepted = true)
    (reason : Termination) : (a.after s).outcome reason =
      { point := s.trial.point, residual := a.value s.trial.point
        norm := norm (a.value s.trial.point), iterations := s.iterations + 1
        evaluations := s.evaluations + 1, jacobians := s.jacobians, termination := reason } := by
  rw [State.outcome, Answers.after, State.point_advance, State.residual_advance, State.norm_advance,
    State.iterations_advance, State.evaluations_advance, State.jacobians_advance, if_pos accepted,
    if_pos accepted, if_pos accepted, if_pos accepted]
  rfl

/-- What a search would end with after a trial whose point is not kept. -/
theorem outcome_after_of_not_accepted (rejected : (a.assessed s).isAccepted ≠ true)
    (reason : Termination) :
    (a.after s).outcome reason = { s.outcome reason with evaluations := s.evaluations + 1 } := by
  rw [State.outcome, Answers.after, State.point_advance, State.residual_advance, State.norm_advance,
    State.iterations_advance, State.evaluations_advance, State.jacobians_advance, if_neg rejected,
    if_neg rejected, if_neg rejected, if_neg rejected]
  rfl

/-- One more residual that leads nowhere. -/
theorem Confirms.evaluated {value : List F → List F} {o : Outcome F}
    (confirms : Confirms c value start o) (x : List F) :
    Confirms { c with tried := c.tried ++ [x] } value start
      { o with evaluations := o.evaluations + 1 } :=
  { confirms with
    head_tried := by simp [confirms.head_tried]
    mem_tried := List.mem_append_left _ confirms.mem_tried
    evaluations := by simp [confirms.evaluations]
    iterations_lt := Nat.lt_succ_of_lt confirms.iterations_lt }

namespace Underway

/-- The matrix, the scales and the counters that no outcome shows do not matter. -/
theorem congr (underway : Underway start a c s) (shaped : Shaped a t)
    (same : t.outcome = s.outcome) : Underway start a c t where
  shaped := shaped
  norm_eq := by
    have norm : t.norm = s.norm := congrArg Outcome.norm (congrFun same .converged)
    have residual : t.residual = s.residual := congrArg Outcome.residual (congrFun same .converged)
    rw [norm, residual, underway.norm_eq]
  fits_start := underway.fits_start
  fits := underway.fits
  confirms reason := congrFun same reason ▸ underway.confirms reason

/-- A trial keeps what was confirmed, whether its point is kept or not. -/
theorem after [SoundComparisons F] (underway : Underway start a c s)
    (fits : (a.value s.trial.point).length = s.point.length) :
    Underway start a (c.read (a.trialEvents s)) (a.after s) := by
  have shaped := underway.shaped.after fits
  have allFit : ∀ x ∈ c.tried ++ [s.trial.point], (a.value x).length = start.length := by
    simp only [List.forall_mem_append, List.forall_mem_singleton]
    exact ⟨underway.fits, fits.trans underway.shaped.point⟩
  rw [read_trialEvents]
  by_cases accepted : (a.assessed s).isAccepted = true
  · have outcome := outcome_after_of_accepted accepted
    refine ⟨shaped, ?_, underway.fits_start, allFit, fun reason => ?_⟩
    · exact (congrArg Outcome.norm (outcome .converged)).trans
        (congrArg (fun o => norm o.residual) (outcome .converged)).symm
    · have confirms := underway.confirms reason
      have shorter : norm (a.value s.trial.point) < norm (a.value s.point) := by
        have shorter := norm_lt_of_isAccepted accepted
        rwa [underway.norm_eq, underway.shaped.residual] at shorter
      rw [outcome, if_pos accepted]
      exact {
        length := underway.shaped.length_trial
        residual := rfl
        last := by rw [← List.cons_append, List.getLast?_concat]
        descends := by
          rw [← List.cons_append, List.isChain_append]
          refine ⟨confirms.descends, .singleton _, fun x last y first => ?_⟩
          rw [confirms.last] at last
          cases last
          cases first
          exact shorter
        head_tried := by simp [confirms.head_tried]
        mem_tried := by simp
        evaluations := (congrArg (· + 1) confirms.evaluations).trans (by simp)
        jacobians := confirms.jacobians
        iterations := (congrArg (· + 1) confirms.iterations).trans (by simp)
        iterations_lt := Nat.succ_lt_succ confirms.iterations_lt }
  · have outcome := outcome_after_of_not_accepted accepted
    refine ⟨shaped, ?_, underway.fits_start, allFit, fun reason => ?_⟩
    · exact (congrArg Outcome.norm (outcome .converged)).trans
        (underway.norm_eq.trans (congrArg (fun o => norm o.residual) (outcome .converged)).symm)
    · rw [outcome, if_neg accepted]
      exact (underway.confirms reason).evaluated _

theorem linearized (underway : Underway start a c s) (x : List F) :
    Underway start a (c.read (a.matrixEvents x)) s.linearized := by
  rw [read_matrixEvents]
  refine ⟨⟨underway.shaped.model.congr rfl rfl, underway.shaped.point, underway.shaped.residual,
    underway.shaped.fits⟩, underway.norm_eq, underway.fits_start, underway.fits, fun reason => ?_⟩
  have confirms := underway.confirms reason
  exact { confirms with
    jacobians := by
      rw [List.length_append, ← confirms.jacobians]
      rfl }

theorem step [SoundComparisons F] (underway : Underway start a c s)
    (square : a.IsSquare) (step : Step a settings s events t) :
    Underway start a (c.read events) t := by
  have shaped := underway.shaped.step square step
  cases step with
  | correct goesOn _ => exact (underway.after goesOn.fits).congr shaped (State.outcome_correct ..)
  | refresh goesOn _ _ _ =>
    rw [Account.read_append]
    exact ((underway.after goesOn.fits).linearized _).congr shaped rfl

end Underway

/-- A failure counts towards the next Jacobian until that one is due. -/
theorem Spaced.after (spaced : Spaced 1 s) : Spaced 2 (a.after s) := by
  have evaluations : (a.after s).evaluations = s.evaluations + 1 := State.evaluations_advance ..
  have jacobians : (a.after s).jacobians = s.jacobians := State.jacobians_advance ..
  have failures : (a.after s).failures = _ := State.failures_advance ..
  unfold Spaced at *
  rw [evaluations, jacobians, failures]
  split_ifs at * <;> omega

theorem Spaced.correct (spaced : Spaced 2 s) (_notDue : s.failures ≠ 2) (r : Trial F)
    (b : Assessment F) : Spaced 1 (s.correct r b) := by
  unfold Spaced at *
  rw [State.failures_correct, State.jacobians_correct, State.evaluations_correct]
  split_ifs at * <;> omega

omit [Arith F] in
theorem Spaced.linearized (spaced : Spaced 2 s) (failed : s.failures = 2) :
    Spaced 1 s.linearized := by
  change 3 * (s.jacobians + 1) + (if s.failures ≤ 1 then s.failures + 1 else 0) ≤ s.evaluations + 3
  unfold Spaced at spaced
  rw [failed, if_pos le_rfl] at spaced
  rw [failed, if_neg (by decide)]
  omega

theorem Spaced.step (spaced : Spaced 1 s) (step : Step a settings s events t) : Spaced 1 t := by
  cases step with
  | correct _ notDue => exact spaced.after.correct notDue _ _
  | refresh _ failed _ _ => exact spaced.after.linearized failed

omit [Arith F] in
theorem Spaced.jacobians_le {few : Nat} (spaced : Spaced few s) :
    s.jacobians ≤ 1 + s.evaluations / 3 := by
  unfold Spaced at spaced
  omega

end RootSearch

end ImplicitDiff
