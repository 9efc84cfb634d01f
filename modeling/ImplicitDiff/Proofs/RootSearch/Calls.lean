import ImplicitDiff.Proofs.RootSearch.Budget

/-! # What a search calls

A search asks for residuals and for Jacobians, and each question takes some calls of the equations.
The counters of a search count the questions and not the calls. Here it is shown that what equations
left in the journal is what the questions took, one after the other, and that no counter drifts away
from what it counts, however long the search is.
-/

namespace ImplicitDiff

variable {F : Type}

namespace Journal

/-- What comes from the equations, in order. -/
def ofEquations (journal : Journal F) : List (Event F) :=
  journal.toList.filter Event.isOfEquations

/-- The calls of the equations, in order. -/
def calls (journal : Journal F) : List (Event F) := journal.toList.filter Event.isCall

/-- The messages are those of the calls, in the same order, if this is what a call writes. -/
def Announced (writes : Event F → List (Message F)) (journal : Journal F) : Prop :=
  Journal.written journal = (calls journal).flatMap writes

variable (journal more : Journal F)

theorem calls_append : calls (journal ++ more) = calls journal ++ calls more := by
  rw [calls, Array.toList_append, List.filter_append]
  rfl

theorem written_append :
    Journal.written (journal ++ more) = Journal.written journal ++ Journal.written more := by
  rw [written, Array.toList_append, List.filterMap_append]
  rfl

theorem calls_eq : calls journal = (ofEquations journal).filter Event.isCall := by
  rw [ofEquations, List.filter_filter, calls]
  refine List.filter_congr fun e _ => ?_
  cases e <;> rfl

theorem written_eq : Journal.written journal = (ofEquations journal).filterMap Event.message? := by
  rw [ofEquations, List.filterMap_filter, written]
  refine List.filterMap_congr fun e _ => ?_
  cases e <;> rfl

variable {journal more} {writes : Event F → List (Message F)}

theorem Announced.append (first : Announced writes journal) (second : Announced writes more) :
    Announced writes (journal ++ more) := by
  rw [Announced, written_append, first, second, calls_append, List.flatMap_append]

end Journal

namespace RootSearch

open Arith

variable {p : Problem F} {n : Nat}

/-- What a question leaves in the journal. What is no question leaves nothing. -/
def Answers.notesFor (a : Answers p n) : Event F → Journal F
  | .evaluated x => a.valueNotes x
  | .linearized x => a.matrixNotes x
  | _ => #[]

/-- What comes from the equations is what the questions took, in the same order, and Jacobians are
asked for at points of `n` entries. -/
structure Answered (a : Answers p n) (events : Journal F) : Prop where
  noted : Journal.ofEquations events = events.toList.flatMap fun e => (a.notesFor e).toList
  long {x : List F} : .linearized x ∈ events → x.length = n

namespace Answered

variable {a : Answers p n} {events more : Journal F}

theorem append (first : Answered a events) (second : Answered a more) :
    Answered a (events ++ more) where
  noted := by
    rw [Journal.ofEquations, Array.toList_append, List.filter_append, List.flatMap_append,
      ← first.noted, ← second.noted]
    rfl
  long asked := (Array.mem_append.mp asked).elim first.long second.long

/-- A question and what it takes. -/
theorem question {e : Event F} {noted : Journal F} (answers : a.notesFor e = noted)
    (question : e.isOfEquations = false) (only : ∀ e ∈ noted, e.isOfEquations)
    (long : ∀ x, e = .linearized x → x.length = n) : Answered a (#[e] ++ noted) where
  noted := by
    have silent : (noted.toList.flatMap fun e => (a.notesFor e).toList) = [] := by
      rw [List.flatMap_eq_nil_iff]
      intro call member
      have called := only call (Array.mem_toList_iff.mp member)
      cases call with
      | called _ _ | wrote _ => rfl
      | _ => cases called
    have all : noted.toList.filter Event.isOfEquations = noted.toList :=
      List.filter_eq_self.mpr fun e member => only e (Array.mem_toList_iff.mp member)
    rw [Journal.ofEquations, Array.toList_append, List.filter_append, List.flatMap_append, silent,
      all, List.append_nil, List.filter_eq_nil_iff.mpr (by simp [question]), List.nil_append]
    exact (congrArg Array.toList answers).symm.trans (List.append_nil _).symm
  long {x} asked := by
    rcases Array.mem_append.mp asked with same | call
    · exact long x (Array.mem_singleton.mp same).symm
    · cases only _ call

theorem value (a : Answers p n) (x : List F) : Answered a (a.valueEvents x) :=
  question rfl rfl (a.ofEquations_valueNotes x) nofun

theorem matrix (a : Answers p n) {x : List F} (long : x.length = n) :
    Answered a (a.matrixEvents x) := by
  refine question rfl rfl (a.ofEquations_matrixNotes x) ?_
  rintro _ ⟨⟩
  exact long

theorem stopped (a : Answers p n) (o : Outcome F) : Answered a #[o.event] :=
  ⟨rfl, fun asked => nomatch Array.mem_singleton.mp asked⟩

theorem trial [Arith F] (a : Answers p n) (s : State F) : Answered a (a.trialEvents s) :=
  (value a _).append ⟨rfl, fun asked => nomatch Array.mem_singleton.mp asked⟩

theorem calls (answered : Answered a events) :
    Journal.calls events = events.toList.flatMap fun e => Journal.calls (a.notesFor e) := by
  rw [Journal.calls_eq, answered.noted, List.filter_flatMap]
  rfl

/-- If the messages of each question are those of its calls, all messages are. -/
theorem announced {writes : Event F → List (Message F)} (answered : Answered a events)
    (each : ∀ e, Journal.Announced writes (a.notesFor e)) : Journal.Announced writes events := by
  rw [Journal.Announced, Journal.written_eq, answered.noted, answered.calls,
    List.filterMap_flatMap, List.flatMap_assoc]
  exact congrArg events.toList.flatMap (funext each)

/-- Where a residual takes one call, and a Jacobian one more than there are unknowns, the questions
tell the number of calls. -/
theorem length_calls (answered : Answered a events)
    (one : ∀ x, (Journal.calls (a.valueNotes x)).length = 1)
    (several : ∀ x, (Journal.calls (a.matrixNotes x)).length = x.length + 1) :
    (Journal.calls events).length =
      Journal.evaluations events + Journal.linearizations events * (n + 1) := by
  have long {x : List F} (asked : .linearized x ∈ events.toList) : x.length = n :=
    answered.long (Array.mem_toList_iff.mp asked)
  rw [answered.calls, Journal.evaluations, Journal.linearizations, ← Array.countP_toList,
    ← Array.countP_toList]
  generalize events.toList = items at long
  induction items with
  | nil => simp
  | cons e rest ih =>
    have later := ih fun asked => long (List.mem_cons_of_mem e asked)
    rw [List.flatMap_cons, List.length_append, later]
    cases e with
    | evaluated x =>
      have single : (Journal.calls (a.notesFor (.evaluated x))).length = 1 := one x
      rw [single, List.countP_cons_of_pos rfl, List.countP_cons_of_neg (by simp)]
      omega
    | linearized x =>
      have columns : (Journal.calls (a.notesFor (.linearized x))).length = n + 1 :=
        (several x).trans (congrArg (· + 1) (long List.mem_cons_self))
      rw [columns, List.countP_cons_of_neg (by simp), List.countP_cons_of_pos rfl, Nat.succ_mul]
      omega
    | _ =>
      rw [List.countP_cons_of_neg (by simp), List.countP_cons_of_neg (by simp)]
      exact Nat.zero_add _

end Answered

section Linearizations

variable (a : Answers p n)

theorem linearizations_append (journal more : Journal F) :
    Journal.linearizations (journal ++ more) =
      Journal.linearizations journal + Journal.linearizations more := Array.countP_append

private theorem linearizations_valueEvents (x : List F) :
    Journal.linearizations (a.valueEvents x) = 0 := by
  rw [Journal.linearizations_eq, Journal.account, read_valueEvents]
  rfl

private theorem linearizations_matrixEvents (x : List F) :
    Journal.linearizations (a.matrixEvents x) = 1 := by
  rw [Journal.linearizations_eq, Journal.account, read_matrixEvents]
  rfl

private theorem linearizations_trialEvents [Arith F] (s : State F) :
    Journal.linearizations (a.trialEvents s) = 0 := by
  rw [Journal.linearizations_eq, Journal.account, read_trialEvents]
  split_ifs <;> rfl

end Linearizations

/-- The events answer questions, as many as lead from these counters to those of the outcome. -/
structure Tallied (a : Answers p n) (evaluations jacobians : Nat) (events : Journal F)
    (o : Outcome F) : Prop extends Answered a events where
  evaluations_eq : o.evaluations = evaluations + Journal.evaluations events
  jacobians_eq : o.jacobians = jacobians + Journal.linearizations events
  point : o.point.length = n

namespace Tallied

variable {a : Answers p n} {evaluations jacobians : Nat} {more : Journal F} {o : Outcome F}

theorem stopped (first : o.evaluations = evaluations) (second : o.jacobians = jacobians)
    (long : o.point.length = n) : Tallied a evaluations jacobians #[o.event] o where
  toAnswered := .stopped a o
  evaluations_eq := first
  jacobians_eq := second
  point := long

theorem value (x : List F) (rest : Tallied a (evaluations + 1) jacobians more o) :
    Tallied a evaluations jacobians (a.valueEvents x ++ more) o where
  toAnswered := (Answered.value a x).append rest.toAnswered
  evaluations_eq := by
    rw [evaluations_append, evaluations_valueEvents, rest.evaluations_eq, Nat.add_assoc]
  jacobians_eq := by
    rw [linearizations_append, linearizations_valueEvents, rest.jacobians_eq, Nat.zero_add]
  point := rest.point

theorem trial [Arith F] (s : State F) (rest : Tallied a (evaluations + 1) jacobians more o) :
    Tallied a evaluations jacobians (a.trialEvents s ++ more) o where
  toAnswered := (Answered.trial a s).append rest.toAnswered
  evaluations_eq := by
    rw [evaluations_append, evaluations_trialEvents, rest.evaluations_eq, Nat.add_assoc]
  jacobians_eq := by
    rw [linearizations_append, linearizations_trialEvents, rest.jacobians_eq, Nat.zero_add]
  point := rest.point

theorem matrix {x : List F} (long : x.length = n)
    (rest : Tallied a evaluations (jacobians + 1) more o) :
    Tallied a evaluations jacobians (a.matrixEvents x ++ more) o where
  toAnswered := (Answered.matrix a long).append rest.toAnswered
  evaluations_eq := by
    rw [evaluations_append, evaluations_matrixEvents, rest.evaluations_eq, Nat.zero_add]
  jacobians_eq := by
    rw [linearizations_append, linearizations_matrixEvents, rest.jacobians_eq, Nat.add_assoc]
  point := rest.point

end Tallied

variable [Arith F] {a : Answers p n} {settings : Settings F} {s t : State F}
  {events more : Journal F} {o : Outcome F}

/-- An iteration that goes on counts the questions that it asks. -/
theorem Step.tallied (step : Step a settings s events t) (shaped : Shaped a s)
    (rest : Tallied a t.evaluations t.jacobians more o) :
    Tallied a s.evaluations s.jacobians (events ++ more) o := by
  have once : (a.after s).evaluations = s.evaluations + 1 := State.evaluations_advance ..
  have same : (a.after s).jacobians = s.jacobians := State.jacobians_advance ..
  cases step with
  | correct _ _ =>
    rw [State.evaluations_correct, State.jacobians_correct, once, same] at rest
    exact .trial s rest
  | refresh goesOn _ _ _ =>
    rw [State.evaluations_refresh, State.evaluations_linearized, once] at rest
    rw [Array.append_assoc]
    exact .trial s (.matrix (shaped.after goesOn.fits).point (same ▸ rest))

/-- The last iteration does so, too. -/
theorem Stop.tallied (stop : Stop a settings s events o) (shaped : Shaped a s) :
    Tallied a s.evaluations s.jacobians (events ++ #[o.event]) o := by
  have once : (a.after s).evaluations = s.evaluations + 1 := State.evaluations_advance ..
  have same : (a.after s).jacobians = s.jacobians := State.jacobians_advance ..
  cases stop with
  | mismatch _ => exact .value _ (.stopped rfl rfl shaped.point)
  | verdict fits _ => exact .trial s (.stopped once same (shaped.after fits).point)
  | nonFinite goesOn _ _ =>
    have long := (shaped.after goesOn.fits).point
    rw [Array.append_assoc]
    exact .trial s (.matrix long (.stopped once (congrArg (· + 1) same) long))

/-- All iterations from a state on count the questions that they ask. -/
theorem Trace.tallied (trace : Trace a settings s events o) (shaped : Shaped a s)
    (square : a.IsSquare) : Tallied a s.evaluations s.jacobians events o := by
  induction trace with
  | stop stop => exact stop.tallied shaped
  | step step _ ih => exact step.tallied shaped (ih (shaped.step square step))

/-- **The counters of a search count.** A whole search asks as many questions as its outcome says,
and takes the calls that they take. -/
theorem Course.tallied {x : List F} {a : Answers p x.length}
    (course : Course a settings x events o) (square : a.IsSquare) : Tallied a 0 0 events o := by
  cases course with
  | mismatch _ ends | nonFinite _ _ ends | zero _ _ ends =>
    subst ends
    exact .value x (.stopped rfl rfl rfl)
  | nonFiniteMatrix _ _ ends =>
    subst ends
    exact .value x (.matrix rfl (.stopped rfl rfl rfl))
  | run fits _ measured trace =>
    exact .value x (.matrix rfl (trace.tallied (.start settings square fits measured) square))

end RootSearch

end ImplicitDiff
