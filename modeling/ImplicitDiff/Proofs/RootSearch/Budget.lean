import Mathlib.Tactic
import ImplicitDiff.Proofs.RootSearch.Report

/-! # The budget of a search

Every search ends, whatever the residual and the matrix in the place of the Jacobian are. The budget
is looked at after each trial and not before the first one, so a search that leaves its first point
evaluates the residual twice, even with a budget of one. This is the only way to exceed a budget:
from two on, no search does.
-/

namespace ImplicitDiff.RootSearch

open Arith

variable {F : Type}

section Counts

variable {p : Problem F} {n : Nat} (a : Answers p n)

theorem evaluations_append (journal more : Journal F) :
    Journal.evaluations (journal ++ more) =
      Journal.evaluations journal + Journal.evaluations more := Array.countP_append

/-- The end of a search is no evaluation. -/
theorem evaluations_stopped (o : Outcome F) : Journal.evaluations #[o.event] = 0 := rfl

theorem evaluations_valueEvents (x : List F) : Journal.evaluations (a.valueEvents x) = 1 := by
  rw [Journal.evaluations_eq, Journal.account, read_valueEvents]
  rfl

theorem evaluations_matrixEvents (x : List F) : Journal.evaluations (a.matrixEvents x) = 0 := by
  rw [Journal.evaluations_eq, Journal.account, read_matrixEvents]
  rfl

theorem evaluations_trialEvents [Arith F] (s : State F) :
    Journal.evaluations (a.trialEvents s) = 1 := by
  rw [Journal.evaluations_eq, Journal.account, read_trialEvents]
  rfl

end Counts

variable [Arith F] {p : Problem F} {n : Nat} {a : Answers p n} {settings : Settings F}
  {s t : State F} {events : Journal F} {o : Outcome F}

/-- An iteration that goes on counts what it evaluates. -/
theorem Step.evaluations (step : Step a settings s events t) :
    t.evaluations = s.evaluations + Journal.evaluations events := by
  cases step with
  | correct goesOn _ =>
    rw [State.evaluations_correct, evaluations_trialEvents]
    exact State.evaluations_advance ..
  | refresh goesOn _ _ _ =>
    rw [evaluations_append, evaluations_trialEvents, evaluations_matrixEvents]
    exact State.evaluations_advance ..

/-- The last iteration evaluates the residual once, too. -/
theorem Stop.evaluations (stop : Stop a settings s events o) :
    o.evaluations = s.evaluations + 1 ∧ Journal.evaluations events = 1 := by
  cases stop with
  | mismatch _ => exact ⟨rfl, evaluations_valueEvents ..⟩
  | verdict _ _ => exact ⟨State.evaluations_advance .., evaluations_trialEvents ..⟩
  | nonFinite _ _ _ =>
    rw [evaluations_append, evaluations_trialEvents, evaluations_matrixEvents]
    exact ⟨State.evaluations_advance .., rfl⟩

/-- The iterations count what they evaluate. -/
theorem Trace.evaluations (trace : Trace a settings s events o) :
    o.evaluations = s.evaluations + Journal.evaluations events := by
  induction trace with
  | stop stop =>
    obtain ⟨count, once⟩ := stop.evaluations
    rw [evaluations_append, once, evaluations_stopped, count]
  | step step _ ih => rw [evaluations_append, ih, step.evaluations, Nat.add_assoc]

/-- So does a whole search. -/
theorem Course.evaluations {x : List F} {a : Answers p x.length}
    (course : Course a settings x events o) : o.evaluations = Journal.evaluations events := by
  cases course with
  | mismatch _ ended | nonFinite _ _ ended | zero _ _ ended =>
    subst ended
    rw [evaluations_append, evaluations_valueEvents, evaluations_stopped]
    rfl
  | nonFiniteMatrix _ _ ended =>
    subst ended
    rw [evaluations_append, evaluations_append, evaluations_valueEvents, evaluations_matrixEvents,
      evaluations_stopped]
    rfl
  | run _ _ _ trace =>
    rw [evaluations_append, evaluations_append, evaluations_valueEvents, evaluations_matrixEvents,
      trace.evaluations, Nat.zero_add]
    rfl

/-- With known answers a search iterates exactly if it goes on from its first point. -/
theorem departs_iff_visited {x : List F} {a : Answers p x.length} (square : a.IsSquare)
    (journal : Journal F) : Departs a.value a.matrix x ↔
      ∃ given s before, Visited settings p x journal given s before := by
  constructor
  · intro departs
    have measured := columnNorms_eq (square x rfl departs.fits)
    exact ⟨_, _, _, departs.visited measured journal⟩
  · rintro ⟨given, s, before, visited⟩
    induction visited with
    | start ran fits finite nonzero obtained entries _ =>
      cases (a.residual_yields rfl _).symm.trans ran
      cases (a.jacobian_yields rfl _).symm.trans obtained
      exact ⟨fits, finite, nonzero, entries⟩
    | step _ _ ih => exact ih

/-- **The budget of a search**, for any problem. A search that comes to an end has kept within its
budget, unless the budget is one and the search iterates; then it has evaluated the residual twice.
It does come to an end if the problem answers each question, in whatever way. For functions, the
journal shows as many evaluations, and the search iterates if it goes on from its first point. -/
theorem search_evaluations_le (settings : Settings F) :
    (∀ {p : Problem F} {x : List F} {journal last : Journal F} {o : Outcome F},
      (search settings p x).run.run journal = (.ok o, last) →
      o.evaluations ≤ max settings.budget 2 ∧
      (0 < settings.budget → (settings.budget < o.evaluations ↔ settings.budget = 1 ∧
        ∃ given s before, Visited settings p x journal given s before))) ∧
    (∀ {p : Problem F} {x : List F}, p.IsTotal x.length → ∀ journal,
      ∃ o last, (search settings p x).run.run journal = (.ok o, last)) ∧
    ∀ {value : List F → List F} {matrix : List F → Rows F} {start : List F},
      (∀ x, x.length = start.length → (matrix x).IsSquare start.length) →
      ∃ events o,
        Yields (search settings (.ofFunctions (fun x => .ok (value x)) fun x => .ok (matrix x))
          start) events o ∧
        o.evaluations = Journal.evaluations events ∧
        o.evaluations ≤ max settings.budget 2 ∧
        (0 < settings.budget → (settings.budget < o.evaluations ↔
          settings.budget = 1 ∧ Departs value matrix start)) := by
  have within {p : Problem F} {x : List F} {journal last : Journal F} {o : Outcome F}
      (ran : (search settings p x).run.run journal = (.ok o, last)) :
      o.evaluations ≤ max settings.budget 2 ∧
      (0 < settings.budget → (settings.budget < o.evaluations ↔ settings.budget = 1 ∧
        ∃ given s before, Visited settings p x journal given s before)) := by
    obtain ⟨most, again⟩ := evaluations_of_search ran
    refine ⟨most, fun some => ?_⟩
    rw [← again]
    omega
  refine ⟨within, fun total => total.exists_search settings, fun square => ?_⟩
  rename_i value matrix start
  have squareAnswers : (Answers.ofFunctions value matrix start.length).IsSquare :=
    fun x length _ => square x length
  obtain ⟨events, o, ran, course⟩ := exists_course squareAnswers settings
  obtain ⟨most, exceeds⟩ := within (ran #[])
  refine ⟨events, o, ran, course.evaluations, most, fun some => ?_⟩
  rw [exceeds some, ← departs_iff_visited squareAnswers]
  rfl

/-- A residual that is the number of notes in the journal, with the slope one. -/
def notes : Problem Float where
  residual x := do
    note (.evaluated x)
    return [Float.ofNat (← get).size]
  jacobian x := do
    note (.linearized x)
    return [[1]]

/-- The root of `x ↦ x * x * x - 27` is not the first point, and the matrix is wrong. And a residual
that is different each time does not lead a search past its budget. -/
theorem search_evaluations_le_cube :
    (∀ x : List Float, x.length = [100].length → Rows.IsSquare [[3]] ([100] : List Float).length) ∧
    (∃ events o,
      Yields (search ⟨1e-10, 3, 100⟩ (.ofFunctions
        (fun x => .ok (x.map fun a => a * a * a - 27)) fun _ => .ok [[3]]) [100]) events o ∧
      o.evaluations = Journal.evaluations events ∧
      o.evaluations ≤ max 3 2 ∧
      (0 < 3 → (3 < o.evaluations ↔ 3 = 1 ∧
        Departs (F := Float) (fun x => x.map fun a => a * a * a - 27) (fun _ => [[3]]) [100]))) ∧
    notes.IsTotal 1 ∧
    ∃ o last, (search ⟨1e-10, 3, 100⟩ notes [1]).run.run #[] = (.ok o, last) ∧
      o.evaluations ≤ max 3 2 := by
  have total : notes.IsTotal 1 := ⟨fun _ _ _ => ⟨_, _, rfl⟩, fun _ _ _ => ⟨_, _, rfl, isSquare_one 1⟩⟩
  obtain ⟨within, ends, reports⟩ := search_evaluations_le (F := Float) ⟨1e-10, 3, 100⟩
  obtain ⟨o, last, ran⟩ := ends total (x := [1]) #[]
  exact ⟨fun _ _ => isSquare_one 3, reports fun _ _ => isSquare_one 3, total, o, last, ran,
    (within ran).1⟩

/-- With a budget of one evaluation, the search makes two. -/
theorem evaluations_of_one :
    ((search (F := Float) ⟨1e-10, 1, 100⟩ (.ofFunctions
      (fun x => .ok (x.map fun a => a * a * a - 27)) fun x => .ok [x.map fun a => 3 * a * a])
      [100]).run.run #[]).1.map (fun o => (o.evaluations, o.termination)) =
        .ok (2, .budgetExhausted) := by
  decide +kernel

end ImplicitDiff.RootSearch
