import ImplicitDiff.Proofs.RootSearch.Calls
import ImplicitDiff.Proofs.Solver.Atomicity
import ImplicitDiff.Proofs.Solver.Total

/-! # How often equations are called

A root comes with the numbers of residuals and of Jacobians that its search asked for. A residual is
one call of the equations and a Jacobian one more than there are unknowns, and besides its search a
solve evaluates the residual at the guess and at the root. The derivative of a root takes a Jacobian
by the unknowns and one by the parameters. This gives the calls of every run that comes to an end,
in number and in order, and so the messages that they write.
-/

namespace ImplicitDiff.Solver

open RootSearch

variable {F : Type} [Arith F]

namespace Restriction

variable (r : Restriction F) (x : List F)

/-- The call that a residual takes. -/
def plainCall : Event F := r.called (x.map Dual.constant)

/-- The calls that a Jacobian takes: one at the point and one for each column. -/
def jacobianCalls : List (Event F) :=
  r.plainCall x :: (List.range x.length).map fun j => r.called (seededAt x j)

/-- The calls that a question takes. What is no question takes none. -/
def callsFor : Event F → List (Event F)
  | .evaluated x => [r.plainCall x]
  | .linearized x => r.jacobianCalls x
  | _ => []

theorem length_jacobianCalls : (r.jacobianCalls x).length = x.length + 1 := by
  rw [jacobianCalls, List.length_cons, List.length_map, List.length_range]

theorem calls_notes (z : List (Dual F)) : Journal.calls (r.notes z) = [r.called z] := by
  have silent : ((r.equations.writes r.data (r.called z)).map Event.wrote).filter Event.isCall =
      [] := by
    rw [List.filter_map, List.map_eq_nil_iff]
    exact List.filter_eq_nil_iff.mpr fun _ _ => Bool.false_ne_true
  rw [notes, Journal.calls_append, Journal.calls, Journal.calls, silent, List.append_nil]
  exact List.filter_cons_of_pos (r.isCall_called z)

/-- A call is followed by what it writes. -/
theorem announced_notes (z : List (Dual F)) :
    Journal.Announced (r.equations.writes r.data) (r.notes z) := by
  have call : Journal.written #[r.called z] = [] := by
    unfold called
    split <;> rfl
  rw [Journal.Announced, calls_notes, notes, Journal.written_append, call, Journal.written,
    List.filterMap_map]
  exact List.filterMap_some.trans (List.append_nil _).symm

theorem calls_jacobianNotes : Journal.calls (r.jacobianNotes x) = r.jacobianCalls x := by
  have columns : ((List.range x.length).flatMap fun j => Journal.calls (r.notes (seededAt x j))) =
      (List.range x.length).map fun j => r.called (seededAt x j) := by
    simp only [calls_notes, List.map_eq_flatMap]
  rw [jacobianNotes, Journal.calls_append, calls_notes, Journal.calls, List.filter_flatMap]
  exact congrArg (r.plainCall x :: ·) columns

theorem announced_jacobianNotes :
    Journal.Announced (r.equations.writes r.data) (r.jacobianNotes x) := by
  refine (r.announced_notes _).append ?_
  rw [Journal.Announced, Journal.written, Journal.calls, List.filterMap_flatMap,
    List.filter_flatMap, List.flatMap_assoc]
  exact congrArg (List.range x.length).flatMap (funext fun j => r.announced_notes (seededAt x j))

theorem announced_residualEvents :
    Journal.Announced (r.equations.writes r.data) (r.residualEvents x) :=
  Journal.Announced.append rfl (r.announced_notes _)

theorem announced_jacobianEvents :
    Journal.Announced (r.equations.writes r.data) (r.jacobianEvents x) :=
  Journal.Announced.append rfl (r.announced_jacobianNotes x)

theorem calls_residualEvents : Journal.calls (r.residualEvents x) = [r.plainCall x] := by
  rw [residualEvents, Journal.calls_append, calls_notes]
  rfl

theorem calls_jacobianEvents : Journal.calls (r.jacobianEvents x) = r.jacobianCalls x := by
  rw [jacobianEvents, Journal.calls_append, calls_jacobianNotes]
  rfl

private theorem calls_notesFor (n : Nat) (e : Event F) :
    Journal.calls ((r.answers n).notesFor e) = r.callsFor e := by
  cases e with
  | evaluated x => exact r.calls_notes _
  | linearized x => exact r.calls_jacobianNotes x
  | _ => rfl

private theorem announced_notesFor (n : Nat) (e : Event F) :
    Journal.Announced (r.equations.writes r.data) ((r.answers n).notesFor e) := by
  cases e with
  | evaluated x => exact r.announced_notes _
  | linearized x => exact r.announced_jacobianNotes x
  | _ => rfl

end Restriction

/-- The search of a solve, which ended in the outcome `o`, and its calls: those of its questions,
one after the other, as many as its counters say. The messages are those of the calls. -/
structure SearchCalls (r : Restriction F) (settings : RootSearch.Settings F) (guess : List F)
    (before searched : Journal F) (o : Outcome F) : Prop where
  ran : (search settings r.problem guess).run.run before = (.ok o, before ++ searched)
  point : o.point.length = guess.length
  evaluations : Journal.evaluations searched = o.evaluations
  jacobians : Journal.linearizations searched = o.jacobians
  calls : Journal.calls searched = searched.toList.flatMap r.callsFor
  number : (Journal.calls searched).length = o.evaluations + o.jacobians * (guess.length + 1)
  announced : Journal.Announced (r.equations.writes r.data) searched

variable {r : Restriction F} {guess : List F} {journal last : Journal F}

private theorem search_calls {settings : RootSearch.Settings F} {o : Outcome F}
    (ran : (search settings r.problem guess).run.run journal = (.ok o, last)) :
    ∃ searched, last = journal ++ searched ∧ SearchCalls r settings guess journal searched o := by
  obtain ⟨searched, rfl, course⟩ := Restriction.search_eq_ok ran
  have tallied := course.tallied (r.total_computes guess.length).isSquare
  have evaluations := tallied.evaluations_eq.trans (Nat.zero_add _)
  have jacobians := tallied.jacobians_eq.trans (Nat.zero_add _)
  refine ⟨searched, rfl, ran, tallied.point, evaluations.symm, jacobians.symm, ?_, ?_,
    tallied.announced (r.announced_notesFor _)⟩
  · exact tallied.calls.trans (congrArg searched.toList.flatMap (funext (r.calls_notesFor _)))
  · rw [evaluations, jacobians]
    refine tallied.length_calls (fun x => ?_) fun x => ?_
    · exact congrArg List.length (r.calls_notes _)
    · exact (congrArg List.length (r.calls_jacobianNotes x)).trans (r.length_jacobianCalls x)

/-! ## How a solve goes -/

/-- The root that a search ended at, with a residual of this length. -/
def Root.ofOutcome (o : Outcome F) (norm : F) : Root F :=
  { point := o.point, norm, evaluations := o.evaluations, jacobians := o.jacobians
    iterations := o.iterations, termination := o.termination }

/-- What a solve adds to the journal, for each way to come to an end. -/
inductive SolveCourse (r : Restriction F) (settings : Settings F) (guess : List F)
    (before : Journal F) : Journal F → Except (Failure F) (Root F) → Prop
  | refused {cause : InvalidInput F} :
      SolveCourse r settings guess before #[] (.error (.invalidInput cause))
  | unfit {actual : Nat} : SolveCourse r settings guess before (r.residualEvents guess)
      (.error (.dimensionMismatch guess.length actual))
  | mismatch {searched : Journal F} {o : Outcome F} {actual : Nat} :
      SearchCalls r settings.search guess (before ++ r.residualEvents guess) searched o →
      SolveCourse r settings guess before (r.residualEvents guess ++ searched)
        (.error (.dimensionMismatch guess.length actual))
  | spent {searched : Journal F} {o : Outcome F} :
      SearchCalls r settings.search guess (before ++ r.residualEvents guess) searched o →
      SolveCourse r settings guess before (r.residualEvents guess ++ searched ++
        #[.overspent o.evaluations settings.budget o.termination])
        (.error (.nonConvergence settings.budget o.evaluations))
  | unfitAgain {searched : Journal F} {o : Outcome F} {actual : Nat} :
      SearchCalls r settings.search guess (before ++ r.residualEvents guess) searched o →
      SolveCourse r settings guess before
        (r.residualEvents guess ++ searched ++ r.residualEvents o.point)
        (.error (.dimensionMismatch guess.length actual))
  | rejected {searched : Journal F} {o : Outcome F} {norm : F} :
      SearchCalls r settings.search guess (before ++ r.residualEvents guess) searched o →
      SolveCourse r settings guess before (r.residualEvents guess ++ searched ++
        r.residualEvents o.point ++ #[.rejected norm o.termination])
        (.error (.unacceptableRoot norm settings.functionTolerance))
  | accepted {searched : Journal F} {o : Outcome F} {norm : F} :
      SearchCalls r settings.search guess (before ++ r.residualEvents guess) searched o →
      SolveCourse r settings guess before (r.residualEvents guess ++ searched ++
        r.residualEvents o.point ++ #[.accepted norm o.evaluations o.jacobians])
        (.ok (.ofOutcome o norm))

omit [Arith F] in
/-- Residuals of the wrong number end a solve, and nothing else happens. -/
theorem requireLength_bind_eq_ok {n : Nat} {residual : List F} {β : Type} {f : Unit → SolveM F β}
    {result : Except (Failure F) β}
    (ran : (requireLength n residual >>= f).run.run.run journal = (.ok result, last)) :
    (result = .error (.dimensionMismatch n residual.length) ∧ last = journal) ∨
      (f ()).run.run.run journal = (.ok result, last) := by
  unfold requireLength at ran
  split_ifs at ran
  · exact .inr ran
  · cases ran
    exact .inl ⟨rfl, rfl⟩

variable {equations : Equations F} {data : Data F} {parameters : List F} {settings : Settings F}

/-- A solve that comes to an end takes one of its courses. -/
theorem findRoot_course {result : Except (Failure F) (Root F)}
    (ran : (findRoot equations guess parameters data settings).run.run.run journal =
      (.ok result, last)) :
    ∃ events, last = journal ++ events ∧ SolveCourse (equations.atParameters data parameters)
      settings guess journal events result := by
  cases violated : (violations guess parameters data.reals settings).head? with
  | some cause =>
    cases (findRoot_of_violation violated journal).symm.trans ran
    exact ⟨#[], rfl, .refused⟩
  | none =>
    have screening : (screened (screen guess parameters data.reals settings)).run.run.run journal =
        (.ok (.ok ()), journal) := by
      rw [screen_eq, firstOf, violated]
      rfl
    rw [findRoot, solve_bind_of_ok screening] at ran
    obtain ⟨values, middle, asked, ran⟩ := lift_bind_eq_ok_iff.mp ran
    obtain ⟨-, rfl⟩ := Restriction.residual_eq_ok asked
    obtain ⟨rfl, rfl⟩ | ran := requireLength_bind_eq_ok ran
    · exact ⟨_, rfl, .unfit⟩
    obtain ⟨o, middle, searching, ran⟩ := lift_bind_eq_ok_iff.mp ran
    obtain ⟨searched, rfl, calls⟩ := search_calls searching
    -- The outcome of the search decides: a mismatch, a spent budget, or one more residual.
    dsimp only at ran
    split at ran
    case h_1 =>
      cases ran
      exact ⟨_, Array.append_assoc, .mismatch calls⟩
    split_ifs at ran with used
    · cases ran
      refine ⟨_, ?_, .spent calls⟩
      rw [← Array.append_assoc, Array.append_singleton, ← Array.append_assoc]
    obtain ⟨residual, middle, asked, ran⟩ := lift_bind_eq_ok_iff.mp ran
    obtain ⟨-, rfl⟩ := Restriction.residual_eq_ok asked
    obtain ⟨rfl, rfl⟩ | ran := requireLength_bind_eq_ok ran
    · refine ⟨_, ?_, .unfitAgain calls⟩
      rw [← Array.append_assoc, ← Array.append_assoc]
    rw [accept] at ran
    split_ifs at ran with short
    · cases ran
      refine ⟨_, ?_, .accepted calls⟩
      rw [← Array.append_assoc, Array.append_singleton, ← Array.append_assoc, ← Array.append_assoc]
    · cases ran
      refine ⟨_, ?_, .rejected calls⟩
      rw [← Array.append_assoc, Array.append_singleton, ← Array.append_assoc, ← Array.append_assoc]

/-! ## The calls of a solve -/

/-- What is known of the calls of any solve that has added `events` to the journal. -/
structure SolveCalls {α : Type} (r : Restriction F) (settings : Settings F) (guess : List F)
    (before events : Journal F) (result : Except (Failure F) α) : Prop where
  /-- The messages that were added are those that the calls write, in the same order. -/
  messages : Journal.written (before ++ events) =
    Journal.written before ++ (Journal.calls events).flatMap (r.equations.writes r.data)
  /-- Arguments that are refused take no call. -/
  refused {cause : InvalidInput F} : result = .error (.invalidInput cause) →
    Journal.calls events = []
  /-- A search that used up its budget comes after one call and before none. -/
  spent {budget evaluations : Nat} : result = .error (.nonConvergence budget evaluations) →
    ∃ searched o,
      SearchCalls r settings.search guess (before ++ r.residualEvents guess) searched o ∧
      o.evaluations = evaluations ∧
      Journal.calls events = [r.plainCall guess] ++ Journal.calls searched ∧
      (Journal.calls events).length = evaluations + o.jacobians * (guess.length + 1) + 1

/-- The calls of a solve that found a root: one at the guess, those of the search, and one at the
root. -/
structure RootCalls (r : Restriction F) (settings : Settings F) (guess : List F)
    (before events : Journal F) (root : Root F) : Prop where
  point : root.point.length = guess.length
  calls : ∃ searched o,
    SearchCalls r settings.search guess (before ++ r.residualEvents guess) searched o ∧
    o.evaluations = root.evaluations ∧ o.jacobians = root.jacobians ∧ o.point = root.point ∧
    Journal.calls events =
      [r.plainCall guess] ++ Journal.calls searched ++ [r.plainCall root.point]
  number : (Journal.calls events).length =
    root.evaluations + root.jacobians * (guess.length + 1) + 2

omit [Arith F] in
theorem written_of_announced {events : Journal F}
    (announced : Journal.Announced (r.equations.writes r.data) events) (before : Journal F) :
    Journal.written (before ++ events) =
      Journal.written before ++ (Journal.calls events).flatMap (r.equations.writes r.data) := by
  rw [Journal.written_append, announced]

theorem SolveCalls.other {α : Type} {settings : Settings F} {events : Journal F}
    {result : Except (Failure F) α}
    (announced : Journal.Announced (r.equations.writes r.data) events)
    (admitted : ∀ cause, result ≠ .error (.invalidInput cause))
    (within : ∀ budget evaluations, result ≠ .error (.nonConvergence budget evaluations)) :
    SolveCalls r settings guess journal events result where
  messages := written_of_announced announced journal
  refused ended := absurd ended (admitted _)
  spent ended := absurd ended (within _ _)

/-- What a solve was meant to give does not matter where it fails. -/
theorem SolveCalls.failure {α β : Type} {settings : Settings F} {events : Journal F}
    {cause : Failure F}
    (calls : SolveCalls r settings guess journal events (.error cause : Except (Failure F) α)) :
    SolveCalls r settings guess journal events (.error cause : Except (Failure F) β) where
  messages := calls.messages
  refused ended := by
    cases ended
    exact calls.refused rfl
  spent ended := by
    cases ended
    exact calls.spent rfl

section Course

variable {events : Journal F} {result : Except (Failure F) (Root F)} {root : Root F}

theorem SolveCourse.announced (course : SolveCourse r settings guess journal events result) :
    Journal.Announced (r.equations.writes r.data) events := by
  have first := r.announced_residualEvents guess
  cases course with
  | refused => rfl
  | unfit => exact first
  | mismatch search => exact first.append search.announced
  | spent search => exact (first.append search.announced).append rfl
  | unfitAgain search =>
    exact (first.append search.announced).append (r.announced_residualEvents _)
  | rejected search | accepted search =>
    exact ((first.append search.announced).append (r.announced_residualEvents _)).append rfl

theorem SolveCourse.calls (course : SolveCourse r settings guess journal events result) :
    SolveCalls r settings guess journal events result where
  messages := written_of_announced course.announced journal
  refused ended := by
    cases course with
    | refused => rfl
    | _ => cases ended
  spent ended := by
    cases course with
    | @spent searched o search =>
      cases ended
      have calls : Journal.calls (r.residualEvents guess ++ searched ++
          #[.overspent o.evaluations settings.budget o.termination]) =
            [r.plainCall guess] ++ Journal.calls searched := by
        rw [Journal.calls_append, Journal.calls_append, r.calls_residualEvents]
        exact List.append_nil _
      refine ⟨searched, o, search, rfl, calls, ?_⟩
      rw [calls, List.length_append, search.number, List.length_singleton, Nat.add_comm]
    | _ => cases ended

theorem SolveCourse.rootCalls (course : SolveCourse r settings guess journal events (.ok root)) :
    RootCalls r settings guess journal events root := by
  cases course with
  | @accepted searched o norm search =>
    have calls : Journal.calls (r.residualEvents guess ++ searched ++ r.residualEvents o.point ++
        #[.accepted norm o.evaluations o.jacobians]) =
          [r.plainCall guess] ++ Journal.calls searched ++ [r.plainCall o.point] := by
      rw [Journal.calls_append, Journal.calls_append, Journal.calls_append, r.calls_residualEvents,
        r.calls_residualEvents]
      exact List.append_nil _
    refine ⟨search.point, ⟨searched, o, search, rfl, rfl, rfl, calls⟩, ?_⟩
    rw [calls, List.length_append, List.length_append, search.number, List.length_singleton,
      List.length_singleton, Nat.add_comm 1]
    rfl

end Course

/-! ## The derivative of a root -/

/-- The calls of the derivative of a root: those of a Jacobian by the unknowns and of one by the
parameters. -/
def derivativeCalls (equations : Equations F) (data : Data F) (x y : List F) : List (Event F) :=
  (equations.atParameters data y).jacobianCalls x ++ (equations.atUnknowns data x).jacobianCalls y

private theorem length_derivativeCalls (equations : Equations F) (data : Data F) (x y : List F) :
    (derivativeCalls equations data x y).length = (x.length + 1) + (y.length + 1) := by
  rw [derivativeCalls, List.length_append, Restriction.length_jacobianCalls,
    Restriction.length_jacobianCalls]

/-- A derivative that comes to an end has taken all its calls, whether it exists or not. -/
theorem rootDerivative_calls {x y : List F} {result : Except (Failure F) (Rows F)}
    (ran : (rootDerivative equations x y data).run.run.run journal = (.ok result, last)) :
    ∃ events, last = journal ++ events ∧
      Journal.calls events = derivativeCalls equations data x y ∧
      Journal.Announced (equations.writes data) events := by
  obtain ⟨byUnknowns, middle, asked, ran⟩ := lift_bind_eq_ok_iff.mp ran
  obtain ⟨-, rfl⟩ := Restriction.jacobian_eq_ok asked
  obtain ⟨byParameters, middle, asked, ran⟩ := lift_bind_eq_ok_iff.mp ran
  obtain ⟨-, rfl⟩ := Restriction.jacobian_eq_ok asked
  suffices rest : ∃ silent, Journal.ofEquations silent = [] ∧ last = journal ++
      (equations.atParameters data y).jacobianEvents x ++
      (equations.atUnknowns data x).jacobianEvents y ++ silent by
    obtain ⟨silent, none, rfl⟩ := rest
    have calls : Journal.calls silent = [] := by rw [Journal.calls_eq, none, List.filter_nil]
    have written : Journal.written silent = [] := by
      rw [Journal.written_eq, none, List.filterMap_nil]
    refine ⟨_, by rw [Array.append_assoc, Array.append_assoc], ?_, ?_⟩
    · rw [Journal.calls_append, Journal.calls_append, calls, List.append_nil,
        Restriction.calls_jacobianEvents, Restriction.calls_jacobianEvents]
      rfl
    · have both := ((equations.atParameters data y).announced_jacobianEvents x).append
        ((equations.atUnknowns data x).announced_jacobianEvents y)
      rw [← Array.append_assoc]
      refine both.append ?_
      rw [Journal.Announced, written, calls, List.flatMap_nil]
  dsimp only at ran
  split_ifs at ran with unfit
  · cases ran
    exact ⟨#[], rfl, Array.append_empty.symm⟩
  · obtain ⟨solved, middle, went, ran⟩ := lift_bind_eq_ok_iff.mp ran
    cases result : byUnknowns.solveRows? (byParameters.map fun row => row.map fun d => -d) with
    | error fault =>
      rw [result] at went
      cases went
    | ok found =>
      rw [result] at went
      cases went
      cases solved with
      | none =>
        cases ran
        exact ⟨#[], rfl, Array.append_empty.symm⟩
      | some block =>
        cases ran
        exact ⟨#[.differentiated x.length y.length], rfl, Array.append_singleton.symm⟩

/-- A derivative is missing if the Jacobian has no inverse or no square shape. -/
theorem cause_of_rootDerivative {x y : List F} {cause : Failure F}
    (failed : (rootDerivative equations x y data).run.run.run journal =
      (.ok (.error cause), last)) :
    cause = .singularJacobian ∨ ∃ expected actual, cause = .dimensionMismatch expected actual := by
  obtain ⟨fault, -, events, ran⟩ | ⟨residuals, rows, -, result, ⟨events, ran⟩, derived⟩ :=
    rootDerivative_endsIn equations x y data
  · cases (ran journal).symm.trans failed
  · cases (ran journal).symm.trans failed
    cases derived with
    | mismatch _ => exact .inr ⟨_, _, rfl⟩
    | singular _ _ => exact .inl rfl

section Traced

variable {parameters : List (Traced F)} {before after : Recorder F}

/-- Attaching a root to the active tape takes its derivative, and all that may fail is this. -/
theorem derivative_of_attach {point : List F} {result : Except (Failure F) (List (Traced F))}
    (tracked : parameters.any Traced.isTracked = true)
    (ran : (attach equations point parameters data).run.run.run before = (.ok result, after)) :
    ∃ derived, (rootDerivative equations point (parameters.map Traced.value) data).run.run.run
        before.journal = (.ok derived, after.journal) ∧
      ∀ cause, result = .error cause → derived = .error cause := by
  obtain ⟨_ | t, journal⟩ := before
  case none => cases (attach_of_inactive tracked).symm.trans ran
  cases result with
  | ok roots =>
    obtain ⟨constant, -⟩ | ⟨-, block, node, next, last, derived, -, -, -, rfl⟩ := attach_eq_ok ran
    · cases constant.symm.trans tracked
    · exact ⟨_, derived, nofun⟩
  | error cause =>
    rw [attach_of_active tracked] at ran
    have recorded := run_record
      (rootDerivative equations point (parameters.map Traced.value) data) ⟨some t, journal⟩
    rcases derived : (rootDerivative equations point (parameters.map Traced.value) data).run.run.run
      journal with ⟨fault | other | block, last⟩
    all_goals rw [derived] at recorded
    · cases (solve_bind_of_fault recorded).symm.trans ran
    · cases (solve_bind_of_error recorded).symm.trans ran
      exact ⟨_, rfl, fun _ same => by cases same; rfl⟩
    · -- What is left is recording the block, which may only end in a fault.
      rw [solve_bind_of_ok recorded] at ran
      obtain ⟨node, _, -, ran⟩ := lift_bind_eq_ok_iff.mp ran
      obtain ⟨first, _, -, ran⟩ := lift_bind_eq_ok_iff.mp ran
      cases ran

/-- The calls of a traced solve: those of the plain solve with the values of the parameters and, if
a parameter is tracked, those of the derivative of its root. -/
structure TracedCalls (equations : Equations F) (data : Data F) (settings : Settings F)
    (guess : List F) (parameters : List (Traced F)) (before events : Journal F)
    (result : Except (Failure F) (List (Traced F))) : Prop extends
    SolveCalls (equations.atParameters data (parameters.map Traced.value)) settings guess before
      events result where
  constant {roots : List (Traced F)} : parameters.any Traced.isTracked = false →
    result = .ok roots → ∃ root,
      (findRoot equations guess (parameters.map Traced.value) data settings).run.run.run before =
        (.ok (.ok root), before ++ events) ∧
      RootCalls (equations.atParameters data (parameters.map Traced.value)) settings guess before
        events root
  derived : parameters.any Traced.isTracked = true →
    result = .error .singularJacobian ∨ (∃ roots, result = .ok roots) → ∃ root solved,
      (findRoot equations guess (parameters.map Traced.value) data settings).run.run.run before =
        (.ok (.ok root), before ++ solved) ∧
      RootCalls (equations.atParameters data (parameters.map Traced.value)) settings guess before
        solved root ∧
      Journal.calls events = Journal.calls solved ++
        derivativeCalls equations data root.point (parameters.map Traced.value) ∧
      (Journal.calls events).length =
        root.evaluations + root.jacobians * (guess.length + 1) + 2 +
          ((guess.length + 1) + (parameters.length + 1))

/-- A root and the calls of its derivative. -/
theorem TracedCalls.of_derivative {root : Root F} {noted solved more : Journal F}
    {result : Except (Failure F) (List (Traced F))}
    (tracked : parameters.any Traced.isTracked = true)
    (found : (findRoot equations guess (parameters.map Traced.value) data settings).run.run.run
      noted = (.ok (.ok root), noted ++ solved))
    (rootCalls : RootCalls (equations.atParameters data (parameters.map Traced.value)) settings
      guess noted solved root)
    (calls : Journal.calls more =
      derivativeCalls equations data root.point (parameters.map Traced.value))
    (announced : Journal.Announced (equations.writes data) (solved ++ more))
    (cause : ∀ cause, result = .error cause →
      cause = .singularJacobian ∨ ∃ expected actual, cause = .dimensionMismatch expected actual) :
    TracedCalls equations data settings guess parameters noted (solved ++ more) result := by
  have both : Journal.calls (solved ++ more) = Journal.calls solved ++
      derivativeCalls equations data root.point (parameters.map Traced.value) := by
    rw [Journal.calls_append, calls]
  refine {
    toSolveCalls := .other announced (fun _ ended => ?_) (fun _ _ ended => ?_)
    constant := fun none => by cases tracked.symm.trans none
    derived := fun _ _ => ⟨root, solved, found, rootCalls, both, ?_⟩ }
  · obtain ⟨⟨⟩⟩ | ⟨_, _, ⟨⟩⟩ := cause _ ended
  · obtain ⟨⟨⟩⟩ | ⟨_, _, ⟨⟩⟩ := cause _ ended
  · rw [both, List.length_append, length_derivativeCalls, rootCalls.number, rootCalls.point,
      List.length_map]

private theorem solveTraced_calls {result : Except (Failure F) (List (Traced F))}
    (ran : (solveTraced equations guess parameters data settings).run.run.run before =
      (.ok result, after)) :
    ∃ events, after.journal = before.journal ++ events ∧
      TracedCalls equations data settings guess parameters before.journal events result := by
  have searched :=
    run_record (findRoot equations guess (parameters.map Traced.value) data settings) before
  rcases found : (findRoot equations guess (parameters.map Traced.value) data
    settings).run.run.run before.journal with ⟨fault | cause | root, journal⟩
  all_goals rw [found] at searched
  · cases (solve_bind_of_fault searched).symm.trans ran
  · cases (solve_bind_of_error searched).symm.trans ran
    obtain ⟨events, rfl, course⟩ := findRoot_course found
    refine ⟨events, rfl, { toSolveCalls := course.calls.failure, constant := nofun, derived := ?_ }⟩
    rintro - (singular | ⟨roots, none⟩)
    · cases singular
      cases course
    · cases none
  · obtain ⟨solved, rfl, course⟩ := findRoot_course found
    rw [solveTraced, solve_bind_of_ok searched] at ran
    cases tracked : parameters.any Traced.isTracked with
    | false =>
      cases (attach_of_untracked tracked).symm.trans ran
      exact ⟨solved, rfl, {
        toSolveCalls := .other course.announced nofun nofun
        constant := fun _ _ => ⟨root, found, course.rootCalls⟩
        derived := fun some => by cases tracked.symm.trans some }⟩
    | true =>
      obtain ⟨derived, differentiated, same⟩ := derivative_of_attach tracked ran
      obtain ⟨more, grown, calls, announced⟩ := rootDerivative_calls differentiated
      refine ⟨solved ++ more, grown.trans Array.append_assoc, .of_derivative tracked found
        course.rootCalls calls (course.announced.append announced) fun cause ended => ?_⟩
      rw [same cause ended] at differentiated
      exact cause_of_rootDerivative differentiated

end Traced

/-- **Every call of the equations is accounted for**, whatever the equations are, in each run that
comes to an end: none if the arguments are refused, those of the search and two more for a root, one
of them less if the budget was used up, and those of two Jacobians besides where the root becomes a
node or turns out to have no derivative. The messages are those of the calls. -/
theorem calls_accounted (equations : Equations F) (data : Data F) (settings : Settings F)
    (guess : List F) :
    (∀ parameters journal result last,
      (findRoot equations guess parameters data settings).run.run.run journal = (.ok result, last) →
      ∃ events, last = journal ++ events ∧
        SolveCalls (equations.atParameters data parameters) settings guess journal events result ∧
        ∀ root, result = .ok root →
          RootCalls (equations.atParameters data parameters) settings guess journal events root) ∧
    ∀ parameters before result after,
      (solveTraced equations guess parameters data settings).run.run.run before =
        (.ok result, after) →
      ∃ events, after.journal = before.journal ++ events ∧
        TracedCalls equations data settings guess parameters before.journal events result := by
  constructor
  · intro parameters journal result last ran
    obtain ⟨events, grown, course⟩ := findRoot_course ran
    refine ⟨events, grown, course.calls, ?_⟩
    rintro root rfl
    exact course.rootCalls
  · intro parameters before result after ran
    exact solveTraced_calls ran

/-- The equations `x - y = 0`, which write the unknowns and then the parameters. -/
def announcedDifferences : Equations Float where
  residual _ unknowns parameters := .ok (difference unknowns parameters)
  messages _ unknowns parameters := [Equations.row unknowns, Equations.row parameters]

/-- A traced solve of `x - y = 0` takes two residuals and one Jacobian to find the root, so six
calls, and four more for its derivative. If a call writes two messages, these are 20 messages. -/
theorem calls_accounted_differences :
    let settings : Settings Float := ⟨1e-10, 1e-6, 1000⟩
    ∃ roots after root solved,
      (solveTraced announcedDifferences [1] [⟨2, 0⟩] {} settings).run.run.run
        ⟨some { size := 1 }, #[]⟩ = (.ok (.ok roots), after) ∧
      (findRoot announcedDifferences [1] [2] {} settings).run.run.run #[] =
        (.ok (.ok root), solved) ∧
      root.evaluations = 2 ∧ root.jacobians = 1 ∧
      Journal.calls after.journal =
        Journal.calls solved ++ derivativeCalls announcedDifferences {} root.point [2] ∧
      (Journal.calls after.journal).length = 10 ∧
      Journal.written after.journal =
        (Journal.calls after.journal).flatMap (announcedDifferences.writes {}) ∧
      (Journal.written after.journal).length = 20 := by
  intro settings
  have ends : ((solveTraced announcedDifferences [1] [⟨2, 0⟩] {} settings).run.run.run
      ⟨some { size := 1 }, #[]⟩).1.map Except.isOk = .ok true := by
    decide +kernel
  have texts : (Journal.written ((solveTraced announcedDifferences [1] [⟨2, 0⟩] {}
      settings).run.run.run ⟨some { size := 1 }, #[]⟩).2.journal).length = 20 := by
    decide +kernel
  have counters : ((findRoot announcedDifferences [1] [2] {} settings).run.run.run #[]).1.map
      (fun root => root.toOption.map fun root => (root.evaluations, root.jacobians)) =
        .ok (some (2, 1)) := by
    decide +kernel
  rcases ran : (solveTraced announcedDifferences [1] [⟨2, 0⟩] {} settings).run.run.run
    ⟨some { size := 1 }, #[]⟩ with ⟨fault | cause | roots, after⟩
  all_goals rw [ran] at ends texts
  · cases ends
  · cases ends
  obtain ⟨events, grown, calls⟩ :=
    (calls_accounted announcedDifferences {} settings [1]).2 _ _ _ _ ran
  obtain ⟨root, solved, found, -, both, number⟩ := calls.derived rfl (.inr ⟨roots, rfl⟩)
  have messages := calls.messages
  change (findRoot announcedDifferences [1] [2] {} settings).run.run.run #[] = _ at found
  rw [found] at counters
  obtain ⟨evaluations, jacobians⟩ :=
    Prod.mk.inj (Option.some.inj (Except.ok.inj counters))
  rw [Array.empty_append] at found grown messages
  rw [← grown] at both number messages
  rw [evaluations, jacobians] at number
  exact ⟨roots, after, root, solved, rfl, found, evaluations, jacobians, both, number, messages,
    texts⟩

end ImplicitDiff.Solver
