import Mathlib.Tactic
import ImplicitDiff.Proofs.RootSearch.Budget

/-! # Where a search asks for Jacobians

Residuals may have different lengths at different points. A search goes on from a trial point only
if there are as many residuals there as unknowns, so the point of every state is one where the
Jacobian is square, whether the last trial was kept or not, and nowhere else is a Jacobian asked for.
The same invariant gives every linear system of a step its shape.
-/

namespace ImplicitDiff.RootSearch

open Arith

variable {F : Type} {p : Problem F} {n : Nat}

/-- A point of `n` entries with `n` residuals. -/
structure Answers.Fits (a : Answers p n) (x : List F) : Prop where
  point : x.length = n
  residual : (a.value x).length = n

/-- Beyond those of the account `c`, the events ask for Jacobians only at points with as many
residuals as unknowns. -/
def AsksWithin (a : Answers p n) (c : Account F) (events : Journal F) : Prop :=
  ∀ x ∈ (c.read events).linearized, x ∈ c.linearized ∨ a.Fits x

namespace AsksWithin

variable {a : Answers p n} {c : Account F} {events more : Journal F} {x : List F}

theorem append (first : AsksWithin a c events) (second : AsksWithin a (c.read events) more) :
    AsksWithin a c (events ++ more) := by
  intro x asked
  rw [Account.read_append] at asked
  exact (second x asked).elim (first x) .inr

theorem stopped (a : Answers p n) (c : Account F) (o : Outcome F) :
    AsksWithin a c #[o.event] := fun _ asked => .inl asked

theorem value (a : Answers p n) (c : Account F) (x : List F) :
    AsksWithin a c (a.valueEvents x) := by
  intro y asked
  rw [read_valueEvents] at asked
  exact .inl asked

theorem trial [Arith F] (a : Answers p n) (c : Account F) (s : State F) :
    AsksWithin a c (a.trialEvents s) := by
  intro y asked
  rw [read_trialEvents] at asked
  exact .inl asked

theorem matrix (fits : a.Fits x) (c : Account F) : AsksWithin a c (a.matrixEvents x) := by
  intro y asked
  rw [read_matrixEvents, List.mem_append, List.mem_singleton] at asked
  obtain old | rfl := asked
  · exact .inl old
  · exact .inr fits

end AsksWithin

variable [Arith F]

section Trace

variable {a : Answers p n} {settings : Settings F} {s t : State F} {events : Journal F}
  {o : Outcome F}

omit [Arith F] in
theorem Shaped.fits_point (shaped : Shaped a s) : a.Fits s.point := ⟨shaped.point, shaped.fits⟩

theorem Step.asksWithin (step : Step a settings s events t) (shaped : Shaped a s) (c : Account F) :
    AsksWithin a c events := by
  cases step with
  | correct _ _ => exact .trial a c s
  | refresh goesOn _ _ _ =>
    exact (AsksWithin.trial a c s).append (.matrix (shaped.after goesOn.fits).fits_point _)

theorem Stop.asksWithin (stop : Stop a settings s events o) (shaped : Shaped a s) (c : Account F) :
    AsksWithin a c events := by
  cases stop with
  | mismatch _ => exact .value a c _
  | verdict _ _ => exact .trial a c s
  | nonFinite goesOn _ _ =>
    exact (AsksWithin.trial a c s).append (.matrix (shaped.after goesOn.fits).fits_point _)

/-- All iterations from a state on ask for Jacobians only where they are square. -/
theorem Trace.asksWithin (trace : Trace a settings s events o) (shaped : Shaped a s)
    (square : a.IsSquare) (c : Account F) : AsksWithin a c events := by
  induction trace generalizing c with
  | stop stop => exact (stop.asksWithin shaped c).append (.stopped a _ _)
  | step step _ ih =>
    exact (step.asksWithin shaped c).append (ih (shaped.step square step) _)

end Trace

variable {x : List F} {a : Answers p x.length} {settings : Settings F} {s : State F}
  {events : Journal F} {o : Outcome F}

theorem Course.asksWithin (course : Course a settings x events o) (square : a.IsSquare)
    (c : Account F) : AsksWithin a c events := by
  cases course with
  | mismatch _ _ | nonFinite _ _ _ | zero _ _ _ =>
    exact (AsksWithin.value a c x).append (.stopped a _ _)
  | nonFiniteMatrix fits _ _ =>
    exact (AsksWithin.value a c x).append ((AsksWithin.matrix ⟨rfl, fits⟩ _).append
      (.stopped a _ _))
  | run fits _ measured trace =>
    exact (AsksWithin.value a c x).append ((AsksWithin.matrix ⟨rfl, fits⟩ _).append
      (trace.asksWithin (.start settings square fits measured) square _))

/-- **Jacobians are square where they are asked for.** A whole search asks for none but at points of
`n` entries with `n` residuals. -/
theorem Course.fits_of_linearized (course : Course a settings x events o) (square : a.IsSquare) :
    ∀ y ∈ (Journal.account events).linearized, a.Fits y :=
  fun y asked => (course.asksWithin square {} y asked).resolve_left List.not_mem_nil

/-- The linear system for a step has as many equations as unknowns. -/
theorem State.Sized.newtonStep?_eq {n : Nat} (sized : s.Sized n) :
    ∃ right, s.newtonStep? = s.jacobian.solve? right ∧ s.jacobian.IsSquare n ∧
      right.length = n :=
  ⟨_, rfl, sized.model.jacobian, (List.length_map _).trans sized.residual⟩

end ImplicitDiff.RootSearch
