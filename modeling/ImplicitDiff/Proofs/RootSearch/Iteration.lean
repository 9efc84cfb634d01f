import Mathlib.Tactic
import ImplicitDiff.Proofs.RootSearch.Visits

/-! # What an iteration can do

For a problem whose answers depend on the point alone, an iteration of a search either leads to a
next state or ends the search, and there are two ways to go on and three to end. They are the
iterations of any problem, with the answers put in, so what is known of those carries over. Whatever
holds of a whole search is proved of these five cases, and then by induction on the trace that they
make.
-/

namespace ImplicitDiff

/-- Whether the event is a call of the equations. -/
def Event.isCall {F : Type} : Event F → Bool
  | .called _ _ => true
  | _ => false

/-- Whether the event comes from the equations: a call, or what it wrote. -/
def Event.isOfEquations {F : Type} : Event F → Bool
  | .called _ _ | .wrote _ => true
  | _ => false

namespace RootSearch

open Arith

variable {F : Type}

/-- The answers of a problem of `n` unknowns that depend on the point alone. Besides that it was
asked, a problem notes at most what comes from the equations. -/
structure Answers (p : Problem F) (n : Nat) where
  /-- The residual at a point. -/
  value : List F → List F
  /-- The Jacobian at a point. -/
  matrix : List F → Rows F
  /-- What the equations leave in the journal for the residual at a point. -/
  valueNotes : List F → Journal F
  /-- What they leave there for the Jacobian at a point. -/
  matrixNotes : List F → Journal F
  residual_yields {x : List F} (length : x.length = n) :
    Yields (p.residual x) (#[.evaluated x] ++ valueNotes x) (value x)
  jacobian_yields {x : List F} (length : x.length = n) :
    Yields (p.jacobian x) (#[.linearized x] ++ matrixNotes x) (matrix x)
  ofEquations_valueNotes (x : List F) : ∀ e ∈ valueNotes x, e.isOfEquations
  ofEquations_matrixNotes (x : List F) : ∀ e ∈ matrixNotes x, e.isOfEquations

namespace Answers

variable {p : Problem F} {n : Nat} (a : Answers p n)

/-- The Jacobian has as many rows and columns as the point has entries, wherever the residual has as
many. -/
def IsSquare : Prop :=
  ∀ x, x.length = n → (a.value x).length = n → (a.matrix x).IsSquare n

/-- What is noted of the residual at a point. -/
def valueEvents (x : List F) : Journal F := #[.evaluated x] ++ a.valueNotes x

/-- What is noted of the Jacobian at a point. -/
def matrixEvents (x : List F) : Journal F := #[.linearized x] ++ a.matrixNotes x

variable [Arith F]

/-- How the residual at the trial point compares. -/
def assessed (s : State F) : Assessment F := s.assess s.trial (a.value s.trial.point)

/-- The state after the trial, up to its matrix and scales. -/
def after (s : State F) : State F := s.advance s.trial (a.assessed s)

/-- What is noted of a trial. -/
def trialEvents (s : State F) : Journal F :=
  a.valueEvents s.trial.point ++ #[.stepped (a.after s).norm (a.assessed s).ratio (a.after s).radius
    (a.assessed s).isAccepted (a.after s).failures]

end Answers

variable [Arith F] {p : Problem F} {n : Nat}

/-- A trial after which the search goes on. -/
structure GoesOn (a : Answers p n) (settings : Settings F) (s : State F) : Prop where
  fits : (a.value s.trial.point).length = s.point.length
  open_ : (a.after s).verdict settings s.trial.size = none

/-- An iteration leads to a next state, by a corrected or by a fresh matrix. -/
inductive Step (a : Answers p n) (settings : Settings F) : State F → Journal F → State F → Prop
  | correct {s : State F} : GoesOn a settings s → (a.after s).failures ≠ 2 →
      Step a settings s (a.trialEvents s) ((a.after s).correct s.trial (a.assessed s))
  | refresh {s : State F} {columns : List F} : GoesOn a settings s → (a.after s).failures = 2 →
      (a.matrix (a.after s).point).allFinite = true →
      columnNorms (a.matrix (a.after s).point) (a.after s).point.length = .ok columns →
      Step a settings s (a.trialEvents s ++ a.matrixEvents (a.after s).point)
        ((a.after s).linearized.refresh (a.matrix (a.after s).point) columns)

/-- An iteration ends the search. -/
inductive Stop (a : Answers p n) (settings : Settings F) : State F → Journal F → Outcome F → Prop
  | mismatch {s : State F} : (a.value s.trial.point).length ≠ s.point.length →
      Stop a settings s (a.valueEvents s.trial.point)
        (s.evaluated.outcome (.dimensionMismatch (a.value s.trial.point).length))
  | verdict {s : State F} {reason : Termination} :
      (a.value s.trial.point).length = s.point.length →
      (a.after s).verdict settings s.trial.size = some reason →
      Stop a settings s (a.trialEvents s) ((a.after s).outcome reason)
  | nonFinite {s : State F} : GoesOn a settings s → (a.after s).failures = 2 →
      (a.matrix (a.after s).point).allFinite = false →
      Stop a settings s (a.trialEvents s ++ a.matrixEvents (a.after s).point)
        ((a.after s).linearized.outcome .nonFinite)

/-- The iterations from a state to an outcome. -/
inductive Trace (a : Answers p n) (settings : Settings F) :
    State F → Journal F → Outcome F → Prop
  | stop {s : State F} {events : Journal F} {o : Outcome F} :
      Stop a settings s events o → Trace a settings s (events ++ #[o.event]) o
  | step {s t : State F} {events more : Journal F} {o : Outcome F} :
      Step a settings s events t → Trace a settings t more o →
      Trace a settings s (events ++ more) o

/-- A state that belongs to a problem of `n` unknowns: its vectors and its matrix have that size,
and its residual is that of its point. -/
structure Shaped (a : Answers p n) (s : State F) : Prop where
  model : s.IsSquare n
  point : s.point.length = n
  residual : s.residual = a.value s.point
  fits : (a.value s.point).length = n

namespace Shaped

variable {a : Answers p n} {settings : Settings F} {s t : State F} {events : Journal F}

omit [Arith F] in
theorem sized (shaped : Shaped a s) : s.Sized n :=
  ⟨shaped.model, shaped.point, (congrArg _ shaped.residual).trans shaped.fits⟩

theorem length_trial (shaped : Shaped a s) : s.trial.point.length = n := shaped.sized.length_trial

theorem after (shaped : Shaped a s) (fits : (a.value s.trial.point).length = s.point.length) :
    Shaped a (a.after s) := by
  have sized : (a.after s).Sized n := shaped.sized.tried fits
  have known : (a.after s).residual = a.value (a.after s).point := by
    rw [Answers.after, State.point_advance, State.residual_advance]
    split_ifs
    · rfl
    · exact shaped.residual
  exact ⟨sized.model, sized.point, known, (congrArg _ known.symm).trans sized.residual⟩

theorem correct (shaped : Shaped a s) (r : Trial F) (b : Assessment F) :
    Shaped a (s.correct r b) := by
  have sized := shaped.sized.correct r b
  have known : (s.correct r b).residual = a.value (s.correct r b).point := by
    rw [State.residual_correct, State.point_correct, shaped.residual]
  exact ⟨sized.model, sized.point, known, (congrArg _ known.symm).trans sized.residual⟩

theorem refresh (shaped : Shaped a s) {jacobian : Rows F} (square : jacobian.IsSquare n)
    {columns : List F} (measured : columnNorms jacobian n = .ok columns) :
    Shaped a (s.linearized.refresh jacobian columns) :=
  ⟨(shaped.sized.refresh square measured).model, shaped.point, shaped.residual, shaped.fits⟩

/-- The lengths of the columns of the Jacobian at the point of a state. -/
theorem exists_columns (shaped : Shaped a s) (square : a.IsSquare) :
    ∃ columns, columnNorms (a.matrix s.point) s.point.length = .ok columns ∧
      columns.length = n := by
  rw [shaped.point, columnNorms_eq (square _ shaped.point shaped.fits)]
  exact ⟨_, rfl, by simp⟩

theorem step (shaped : Shaped a s) (square : a.IsSquare) (step : Step a settings s events t) :
    Shaped a t := by
  cases step with
  | correct goesOn _ => exact (shaped.after goesOn.fits).correct _ _
  | refresh goesOn _ _ measured =>
    have next := shaped.after goesOn.fits
    rw [next.point] at measured
    exact next.refresh (square _ next.point next.fits) measured

end Shaped

/-! ## Iterations with known answers -/

section Run

variable {a : Answers p n} {settings : Settings F} {s t : State F} {events more : Journal F}
  {before after last : Journal F} {residual : List F} {new : List (Rows F)} {o : Outcome F}

/-- A trial meets the known residual. -/
theorem Shaped.tries (shaped : Shaped a s)
    (fits : (a.value s.trial.point).length = s.point.length) (before : Journal F) :
    Tries p s before (a.value s.trial.point) (before ++ a.trialEvents s) := by
  refine ⟨_, a.residual_yields shaped.length_trial before, fits, ?_⟩
  rw [Answers.trialEvents, ← Array.append_assoc, Array.append_singleton]
  rfl

/-- And no other. -/
theorem Tries.eq_value (tries : Tries p s before residual after) (shaped : Shaped a s) :
    residual = a.value s.trial.point ∧ residual.length = s.point.length := by
  obtain ⟨middle, ran, fits, -⟩ := tries
  cases (a.residual_yields shaped.length_trial before).symm.trans ran
  exact ⟨rfl, fits⟩

theorem Step.moves (step : Step a settings s events t) (shaped : Shaped a s)
    (before : Journal F) : ∃ new, Moves settings p s before new t (before ++ events) := by
  cases step with
  | correct goesOn few => exact ⟨_, .correct (shaped.tries goesOn.fits before) goesOn.open_ few⟩
  | refresh goesOn failed finite measured =>
    rw [← Array.append_assoc]
    exact ⟨_, .refresh (shaped.tries goesOn.fits before) goesOn.open_ failed
      (a.jacobian_yields (shaped.after goesOn.fits).point _) finite measured⟩

theorem Moves.step (moves : Moves settings p s before new t after) (shaped : Shaped a s)
    (square : a.IsSquare) :
    (∃ events, Step a settings s events t) ∧ ∀ jacobian ∈ new, jacobian.IsSquare n := by
  cases moves with
  | correct tries open_ few =>
    obtain ⟨rfl, fits⟩ := tries.eq_value shaped
    exact ⟨⟨_, .correct ⟨fits, open_⟩ few⟩, List.forall_mem_nil _⟩
  | refresh tries open_ failed obtained finite measured =>
    obtain ⟨rfl, fits⟩ := tries.eq_value shaped
    have next := shaped.after fits
    cases (a.jacobian_yields next.point _).symm.trans obtained
    exact ⟨⟨_, .refresh ⟨fits, open_⟩ failed finite measured⟩,
      List.forall_mem_singleton.mpr (square _ next.point next.fits)⟩

theorem Stop.stops (stop : Stop a settings s events o) (shaped : Shaped a s) (before : Journal F) :
    Stops settings p s before o (before ++ (events ++ #[o.event])) := by
  rw [← Array.append_assoc, Array.append_singleton]
  cases stop with
  | mismatch unfit =>
    exact .mismatch (a.residual_yields shaped.length_trial before) unfit rfl
  | verdict fits found => exact .verdict (shaped.tries fits before) found rfl
  | nonFinite goesOn failed infinite =>
    rw [← Array.append_assoc]
    exact .nonFinite (shaped.tries goesOn.fits before) goesOn.open_ failed
      (a.jacobian_yields (shaped.after goesOn.fits).point _) infinite rfl

theorem Stop.run_yields (stop : Stop a settings s events o) (shaped : Shaped a s) :
    Yields (run settings p s) (events ++ #[o.event]) o :=
  fun before => (stop.stops shaped before).run_eq

theorem Step.run_yields (step : Step a settings s events t) (shaped : Shaped a s)
    (rest : Yields (run settings p t) more o) :
    Yields (run settings p s) (events ++ more) o := by
  intro before
  obtain ⟨new, moves⟩ := step.moves shaped before
  rw [moves.run_eq, rest, Array.append_assoc]

/-- What is left of the budget shrinks at every step. -/
theorem Step.left_lt (step : Step a settings s events t) (shaped : Shaped a s) :
    settings.budget - t.evaluations < settings.budget - s.evaluations := by
  obtain ⟨new, moves⟩ := step.moves shaped #[]
  exact moves.left_lt

end Run

section Progress

variable {a : Answers p n}

/-- An iteration leads on or ends. -/
theorem Shaped.progress {s : State F} (shaped : Shaped a s) (square : a.IsSquare)
    (settings : Settings F) :
    (∃ events t, Step a settings s events t) ∨ ∃ events o, Stop a settings s events o := by
  by_cases fits : (a.value s.trial.point).length = s.point.length
  case neg => exact .inr ⟨_, _, .mismatch fits⟩
  cases open_ : (a.after s).verdict settings s.trial.size with
  | some reason => exact .inr ⟨_, _, .verdict fits open_⟩
  | none =>
    by_cases failed : (a.after s).failures = 2
    case neg => exact .inl ⟨_, _, .correct ⟨fits, open_⟩ failed⟩
    cases finite : (a.matrix (a.after s).point).allFinite with
    | false => exact .inr ⟨_, _, .nonFinite ⟨fits, open_⟩ failed finite⟩
    | true =>
      obtain ⟨columns, measured, -⟩ := (shaped.after fits).exists_columns square
      exact .inl ⟨_, _, .refresh ⟨fits, open_⟩ failed finite measured⟩

/-- The iterations from a state reach an outcome. -/
theorem exists_trace {s : State F} (shaped : Shaped a s) (square : a.IsSquare)
    (settings : Settings F) :
    ∃ events o, Yields (run settings p s) events o ∧ Trace a settings s events o := by
  rcases shaped.progress square settings with ⟨events, t, step⟩ | ⟨events, o, stop⟩
  · obtain ⟨more, o, ran, trace⟩ := exists_trace (shaped.step square step) square settings
    exact ⟨_, o, step.run_yields shaped ran, .step step trace⟩
  · exact ⟨_, o, stop.run_yields shaped, .stop stop⟩
termination_by settings.budget - s.evaluations
decreasing_by exact step.left_lt shaped

/-- A trace tells how the iterations run. -/
theorem Trace.run_yields {s : State F} {settings : Settings F} {events : Journal F} {o : Outcome F}
    (trace : Trace a settings s events o) (shaped : Shaped a s) (square : a.IsSquare) :
    Yields (run settings p s) events o := by
  induction trace with
  | stop stop => exact stop.run_yields shaped
  | step step _ ih => exact step.run_yields shaped (ih (shaped.step square step))

end Progress

/-- How a search goes from its first point. -/
inductive Course (a : Answers p n) (settings : Settings F) (x : List F) :
    Journal F → Outcome F → Prop
  | mismatch {o : Outcome F} : (a.value x).length ≠ x.length →
      o = .atStart x (a.value x) nan 0 (.dimensionMismatch (a.value x).length) →
      Course a settings x (a.valueEvents x ++ #[o.event]) o
  | nonFinite {o : Outcome F} : (a.value x).length = x.length → isFinite (norm (a.value x)) = false →
      o = .atStart x (a.value x) (norm (a.value x)) 0 .nonFinite →
      Course a settings x (a.valueEvents x ++ #[o.event]) o
  | zero {o : Outcome F} : (a.value x).length = x.length → (norm (a.value x) == 0) = true →
      o = .atStart x (a.value x) (norm (a.value x)) 0 .zeroResidual →
      Course a settings x (a.valueEvents x ++ #[o.event]) o
  | nonFiniteMatrix {o : Outcome F} : (a.value x).length = x.length →
      (norm (a.value x) == 0) = false →
      o = .atStart x (a.value x) (norm (a.value x)) 1 .nonFinite →
      Course a settings x (a.valueEvents x ++ (a.matrixEvents x ++ #[o.event])) o
  | run {columns : List F} {events : Journal F} {o : Outcome F} :
      (a.value x).length = x.length → (norm (a.value x) == 0) = false →
      columnNorms (a.matrix x) x.length = .ok columns →
      Trace a settings (.start settings x (a.value x) (a.matrix x) columns) events o →
      Course a settings x (a.valueEvents x ++ (a.matrixEvents x ++ events)) o

/-- A search goes on from its first point if the residual there has the right length and is neither
zero nor too large for a number, and the matrix has no entry that is. -/
structure Departs (value : List F → List F) (matrix : List F → Rows F) (start : List F) :
    Prop where
  fits : (value start).length = start.length
  finite : isFinite (norm (value start)) = true
  nonzero : (norm (value start) == 0) = false
  entries : (matrix start).allFinite = true

section Start

variable {x : List F} {a : Answers p x.length} {settings : Settings F} {columns : List F}
  {events : Journal F} {o : Outcome F}

theorem Shaped.start (settings : Settings F) (square : a.IsSquare)
    (fits : (a.value x).length = x.length)
    (measured : columnNorms (a.matrix x) x.length = .ok columns) :
    Shaped a (.start settings x (a.value x) (a.matrix x) columns) :=
  ⟨(State.Sized.start settings fits (square x rfl fits) measured).model, rfl, rfl, fits⟩

theorem Departs.visited (departs : Departs a.value a.matrix x)
    (measured : columnNorms (a.matrix x) x.length = .ok columns) (journal : Journal F) :
    Visited settings p x journal [a.matrix x]
      (.start settings x (a.value x) (a.matrix x) columns)
      (journal ++ a.valueEvents x ++ a.matrixEvents x) :=
  .start (a.residual_yields rfl journal) departs.fits departs.finite departs.nonzero
    (a.jacobian_yields rfl _) departs.entries measured

/-- A search that goes on from its first point iterates. -/
theorem Departs.search_yields (departs : Departs a.value a.matrix x)
    (measured : columnNorms (a.matrix x) x.length = .ok columns)
    (ran : Yields (run settings p (.start settings x (a.value x) (a.matrix x) columns)) events o) :
    Yields (search settings p x) (a.valueEvents x ++ (a.matrixEvents x ++ events)) o := by
  intro journal
  rw [(departs.visited measured journal).run_eq, ran, Array.append_assoc, Array.append_assoc]

/-- A search ends at a first point where the residual has the wrong length. -/
theorem search_yields_of_unfit (settings : Settings F) (unfit : (a.value x).length ≠ x.length)
    (ends : o = .atStart x (a.value x) nan 0 (.dimensionMismatch (a.value x).length)) :
    Yields (search settings p x) (a.valueEvents x ++ #[o.event]) o := by
  intro journal
  rw [← Array.append_assoc, Array.append_singleton]
  exact (Stays.mismatch (a.residual_yields rfl journal) unfit ends).search_eq

/-- A search ends at a first point where the residual is too large for a number. -/
theorem search_yields_of_infinite (settings : Settings F) (fits : (a.value x).length = x.length)
    (infinite : isFinite (norm (a.value x)) = false)
    (ends : o = .atStart x (a.value x) (norm (a.value x)) 0 .nonFinite) :
    Yields (search settings p x) (a.valueEvents x ++ #[o.event]) o := by
  intro journal
  rw [← Array.append_assoc, Array.append_singleton]
  exact (Stays.nonFinite (a.residual_yields rfl journal) fits infinite ends).search_eq

/-- A search ends at a root. -/
theorem search_yields_of_zero (settings : Settings F) (fits : (a.value x).length = x.length)
    (finite : isFinite (norm (a.value x)) = true) (zero : (norm (a.value x) == 0) = true)
    (ends : o = .atStart x (a.value x) (norm (a.value x)) 0 .zeroResidual) :
    Yields (search settings p x) (a.valueEvents x ++ #[o.event]) o := by
  intro journal
  rw [← Array.append_assoc, Array.append_singleton]
  exact (Stays.zero (a.residual_yields rfl journal) fits finite zero ends).search_eq

/-- A search ends at a first point where the matrix has an entry that is too large. -/
theorem search_yields_of_infinite_matrix (settings : Settings F)
    (fits : (a.value x).length = x.length) (finite : isFinite (norm (a.value x)) = true)
    (nonzero : (norm (a.value x) == 0) = false) (infinite : (a.matrix x).allFinite = false)
    (ends : o = .atStart x (a.value x) (norm (a.value x)) 1 .nonFinite) :
    Yields (search settings p x) (a.valueEvents x ++ (a.matrixEvents x ++ #[o.event])) o := by
  intro journal
  rw [← Array.append_assoc, ← Array.append_assoc, Array.append_singleton]
  exact (Stays.nonFiniteMatrix (a.residual_yields rfl journal) fits finite nonzero
    (a.jacobian_yields rfl _) infinite ends).search_eq

/-- A search takes one of its courses, whatever the journal held before. -/
theorem exists_course (square : a.IsSquare) (settings : Settings F) :
    ∃ events o, Yields (search settings p x) events o ∧ Course a settings x events o := by
  by_cases fits : (a.value x).length = x.length
  case neg => exact ⟨_, _, search_yields_of_unfit settings fits rfl, .mismatch fits rfl⟩
  cases finite : isFinite (norm (a.value x)) with
  | false =>
    exact ⟨_, _, search_yields_of_infinite settings fits finite rfl, .nonFinite fits finite rfl⟩
  | true =>
    cases nonzero : norm (a.value x) == 0 with
    | true =>
      exact ⟨_, _, search_yields_of_zero settings fits finite nonzero rfl, .zero fits nonzero rfl⟩
    | false =>
      cases entries : (a.matrix x).allFinite with
      | false =>
        exact ⟨_, _, search_yields_of_infinite_matrix settings fits finite nonzero entries rfl,
          .nonFiniteMatrix fits nonzero rfl⟩
      | true =>
        have measured := columnNorms_eq (square x rfl fits)
        obtain ⟨events, o, ran, trace⟩ :=
          exists_trace (.start settings square fits measured) square settings
        have departs : Departs a.value a.matrix x := ⟨fits, finite, nonzero, entries⟩
        exact ⟨_, o, departs.search_yields measured ran, .run fits nonzero measured trace⟩

end Start

/-! ## The states of a search with known answers -/

/-- In each state that a search visits the residual is the known one, and all matrices so far were
square. -/
theorem Visited.shaped {x : List F} {a : Answers p x.length} {settings : Settings F}
    {journal before : Journal F} {given : List (Rows F)} {s : State F}
    (visited : Visited settings p x journal given s before) (square : a.IsSquare) :
    Shaped a s ∧ ∀ jacobian ∈ given, jacobian.IsSquare x.length := by
  induction visited with
  | start ran fits _ _ obtained _ measured =>
    cases (a.residual_yields rfl _).symm.trans ran
    cases (a.jacobian_yields rfl _).symm.trans obtained
    exact ⟨.start settings square fits measured,
      List.forall_mem_singleton.mpr (square x rfl fits)⟩
  | step _ moves ih =>
    obtain ⟨shaped, earlier⟩ := ih
    obtain ⟨⟨events, step⟩, fresh⟩ := moves.step shaped square
    exact ⟨shaped.step square step, List.forall_mem_append.mpr ⟨earlier, fresh⟩⟩

end RootSearch

end ImplicitDiff
