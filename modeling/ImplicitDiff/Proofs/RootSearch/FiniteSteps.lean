import Mathlib.Tactic
import ImplicitDiff.Proofs.FiniteSums
import ImplicitDiff.Proofs.RootSearch.Report

/-! # Steps are finite, points need not be

A point is kept only if the linear model promised a shorter residual. The length of what it promised
is then below another one, so the step that it promised it for is finite in every part. The sum of a
finite entry and a finite part of a step may still be too large to be finite, and nothing looks at
the point itself. So no entry of a kept point is ever lost to what is no number, but an entry may
become infinite, and then it stays so to the end.
-/

namespace ImplicitDiff.RootSearch

open Arith

variable {F : Type} [Arith F]

/-- All entries are finite. -/
def AllFinite (x : List F) : Prop := ∀ a ∈ x, isFinite a = true

/-- A finite step leads from the first point to the second. -/
def StepsTo (x y : List F) : Prop :=
  ∃ step, step.length = x.length ∧ AllFinite step ∧ y = x.zipWith (fun a p => a + p) step

/-- Some entry is finite at the first point and infinite at the second. -/
def Overflows (x y : List F) : Prop :=
  ∃ (i : Nat) (a b : F), x[i]? = some a ∧ y[i]? = some b ∧ isFinite a = true ∧ IsInfinite b

section Points

variable {x y : List F}

theorem StepsTo.length_eq (moves : StepsTo x y) : y.length = x.length := by
  obtain ⟨step, length, -, rfl⟩ := moves
  rw [List.length_zipWith, length, Nat.min_self]

/-- What a finite step does to one entry. -/
theorem StepsTo.entry (moves : StepsTo x y) {i : Nat} {b : F} (there : y[i]? = some b) :
    ∃ a p, x[i]? = some a ∧ isFinite p = true ∧ b = a + p := by
  obtain ⟨step, -, finite, rfl⟩ := moves
  obtain ⟨inside, rfl⟩ := List.getElem?_eq_some_iff.mp there
  rw [List.length_zipWith, Nat.lt_min] at inside
  refine ⟨x[i], step[i], List.getElem?_eq_getElem inside.1, ?_, List.getElem_zipWith ..⟩
  exact finite _ (List.getElem_mem inside.2)

variable [FiniteSums F]

/-- No entry is lost by a finite step. -/
theorem StepsTo.numbers (moves : StepsTo x y) (numbers : ∀ a ∈ x, isNaN a = false) :
    ∀ b ∈ y, isNaN b = false := by
  intro b member
  obtain ⟨i, there⟩ := List.mem_iff_getElem?.mp member
  obtain ⟨a, p, here, finite, rfl⟩ := moves.entry there
  exact FiniteSums.isNaN_add_of_isFinite (numbers a (List.mem_of_getElem? here)) finite

/-- A finite step leads to a finite point exactly from a finite point, and if no sum is too large
to be finite. -/
theorem StepsTo.allFinite_iff (moves : StepsTo x y) :
    AllFinite y ↔ AllFinite x ∧ ¬Overflows x y := by
  constructor
  · intro finite
    constructor
    · intro a member
      obtain ⟨i, inside, rfl⟩ := List.getElem_of_mem member
      have there := List.getElem?_eq_getElem (moves.length_eq ▸ inside : i < y.length)
      obtain ⟨a, p, here, -, sum⟩ := moves.entry there
      have bounded := finite _ (List.mem_of_getElem? there)
      rw [sum] at bounded
      obtain rfl : x[i] = a := Option.some_inj.mp ((List.getElem?_eq_getElem inside).symm.trans here)
      exact (FiniteSums.isFinite_of_add bounded).1
    · rintro ⟨i, a, b, -, there, -, infinite⟩
      exact (isFinite_iff.mp (finite b (List.mem_of_getElem? there))).2 infinite
  · rintro ⟨finite, bounded⟩ b member
    have numbers : ∀ a ∈ x, isNaN a = false := fun a listed =>
      FiniteSums.isNaN_of_isFinite (finite a listed)
    refine isFinite_iff.mpr ⟨moves.numbers numbers b member, fun infinite => bounded ?_⟩
    obtain ⟨i, there⟩ := List.mem_iff_getElem?.mp member
    obtain ⟨a, p, here, -, -⟩ := moves.entry there
    exact ⟨i, a, b, here, there, finite a (List.mem_of_getElem? here), infinite⟩

/-- Along a path of finite steps no entry is lost, and the last point is finite exactly if the first
one is and no step overflows. -/
theorem allFinite_last_iff {path : List (List F)} (moves : (x :: path).IsChain StepsTo)
    (last : (x :: path).getLast? = some y) :
    ((∀ a ∈ x, isNaN a = false) → ∀ b ∈ y, isNaN b = false) ∧
      (AllFinite y ↔ AllFinite x ∧ (x :: path).IsChain fun x y => ¬Overflows x y) := by
  induction path generalizing x with
  | nil =>
    cases last
    exact ⟨id, iff_of_eq (by simp)⟩
  | cons z rest ih =>
    rw [List.isChain_cons_cons] at moves
    obtain ⟨numbers, finite⟩ := ih moves.2 last
    refine ⟨fun first => numbers (moves.1.numbers first), ?_⟩
    rw [finite, moves.1.allFinite_iff, List.isChain_cons_cons, and_assoc]

end Points

/-! ## Kept points -/

variable [FiniteSums F] [SoundComparisons F] {p : Problem F}

/-- The linear model of a kept point promised a shorter residual. -/
theorem promised_of_isAccepted {s : State F} {t : Trial F} {residual : List F}
    (accepted : (s.assess t residual).isAccepted = true) :
    norm ((s.jacobian.apply t.step).zipWith (fun a r => a + r) s.residual) < s.norm := by
  by_contra longer
  have ratio : (s.assess t residual).ratio = 0 := by
    simp only [State.assess, if_neg longer, if_neg (FiniteSums.lt_irrefl (0 : F))]
  have least : 0.0001 ≤ (s.assess t residual).ratio := of_decide_eq_true accepted
  rw [ratio] at least
  exact SoundComparisons.not_le_zero least

/-- A step that leads to a kept point is finite, because the first row of the matrix meets all of
it. -/
theorem stepsTo_of_isAccepted {n : Nat} {a : Answers p n} {s : State F} (shaped : Shaped a s)
    (accepted : (a.assessed s).isAccepted = true) : StepsTo s.point s.trial.point := by
  have length : s.trial.step.length = n := shaped.model.length_dogleg _
  have many : s.residual.length = n := shaped.residual ▸ shaped.fits
  have model := isFinite_of_norm_lt (promised_of_isAccepted accepted)
  refine ⟨s.trial.step, length.trans shaped.point.symm, fun q member => ?_, rfl⟩
  obtain ⟨i, inside, rfl⟩ := List.getElem_of_mem member
  obtain ⟨row, rows, matrix⟩ : ∃ row rows, s.jacobian = row :: rows :=
    List.exists_cons_of_length_pos (by rw [shaped.model.jacobian.length]; omega)
  obtain ⟨r, rest, residual⟩ : ∃ r rest, s.residual = r :: rest :=
    List.exists_cons_of_length_pos (by omega)
  have wide : row.length = n := shaped.model.jacobian.row (matrix ▸ List.mem_cons_self)
  have first : isFinite (dot row s.trial.step + r) = true := by
    refine model _ ?_
    rw [matrix, residual]
    exact List.mem_cons_self
  have within : i < row.length := by omega
  have paired : (row[i], s.trial.step[i]) ∈ row.zip s.trial.step := by
    rw [List.mem_iff_getElem]
    exact ⟨i, by simp [within, inside], List.getElem_zip⟩
  exact (isFinite_of_dot (FiniteSums.isFinite_of_add first).1 _ paired).2

variable {start : List F} {a : Answers p start.length} {c : Account F} {s t : State F}
  {settings : Settings F} {events : Journal F} {o : Outcome F}

/-- A trial goes on with the path of the kept points. -/
theorem Underway.stepsTo_after (underway : Underway start a c s)
    (moves : (start :: c.kept).IsChain StepsTo) :
    (start :: (c.read (a.trialEvents s)).kept).IsChain StepsTo := by
  rw [read_trialEvents]
  dsimp only
  split_ifs with accepted
  · have last := (underway.confirms .converged).last
    rw [← List.cons_append, List.isChain_append]
    refine ⟨moves, .singleton _, fun x here y next => ?_⟩
    rw [last] at here
    cases here
    cases next
    exact stepsTo_of_isAccepted underway.shaped accepted
  · exact moves

theorem Step.stepsTo (step : Step a settings s events t) (underway : Underway start a c s)
    (moves : (start :: c.kept).IsChain StepsTo) :
    (start :: (c.read events).kept).IsChain StepsTo := by
  have next := underway.stepsTo_after moves
  cases step with
  | correct _ _ => exact next
  | refresh _ _ _ _ => rwa [Account.read_append, read_matrixEvents]

theorem Stop.stepsTo (stop : Stop a settings s events o) (underway : Underway start a c s)
    (moves : (start :: c.kept).IsChain StepsTo) :
    (start :: (c.read events).kept).IsChain StepsTo := by
  have next := underway.stepsTo_after moves
  cases stop with
  | mismatch _ => rwa [read_valueEvents]
  | verdict _ _ => exact next
  | nonFinite _ _ _ => rwa [Account.read_append, read_matrixEvents]

theorem Trace.stepsTo (trace : Trace a settings s events o) (square : a.IsSquare)
    (underway : Underway start a c s) (moves : (start :: c.kept).IsChain StepsTo) :
    (start :: (c.read events).kept).IsChain StepsTo := by
  induction trace generalizing c with
  | stop stop =>
    rw [Account.read_append]
    exact stop.stepsTo underway moves
  | step step _ ih =>
    rw [Account.read_append]
    exact ih (underway.step square step) (step.stepsTo underway moves)

/-- Each kept point follows from the one before by a finite step. -/
theorem Course.stepsTo (course : Course a settings start events o) (square : a.IsSquare) :
    (start :: (Journal.account events).kept).IsChain StepsTo := by
  rw [Journal.account]
  cases course with
  | mismatch _ _ | nonFinite _ _ _ | zero _ _ _ =>
    rw [Account.read_append, read_valueEvents]
    exact .singleton _
  | nonFiniteMatrix _ _ _ =>
    rw [Account.read_append, Account.read_append, read_valueEvents, read_matrixEvents]
    exact .singleton _
  | run fits nonzero measured trace =>
    rw [Account.read_append, Account.read_append, read_valueEvents, read_matrixEvents]
    exact trace.stepsTo square (.first settings square fits measured) (.singleton _)

end ImplicitDiff.RootSearch
