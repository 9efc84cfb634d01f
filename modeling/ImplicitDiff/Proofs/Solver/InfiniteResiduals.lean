import Mathlib.Tactic
import ImplicitDiff.Proofs.Magnitudes
import ImplicitDiff.Proofs.Solver.Acceptance

/-! # Accepted residuals that are not finite

The last check of a solve is one comparison, which what is no number fails, and with a finite
tolerance so does what is infinite. Screening asks of a tolerance only that it is positive. An
infinite tolerance passes, and then an infinite residual is short enough for a root.
-/

namespace ImplicitDiff.Solver

open Arith RootSearch

variable {F : Type} [Arith F] {equations : Equations F} {data : Data F} {guess parameters : List F}
  {settings : Settings F}

/-- A tolerance that breaks no precondition is positive. -/
theorem functionTolerance_pos_of_violations {reals : List F}
    (admitted : violations guess parameters reals settings = []) :
    0 < settings.functionTolerance := by
  by_contra low
  simp [violations, low] at admitted

/-- The search came to an end at which only the length of the residual is left to check. -/
structure ReachesAcceptance (settings : Settings F) (guess parameters reals : List F)
    (value : List F → List F) (tried : List (List F)) (o : RootSearch.Outcome F) : Prop where
  admitted : violations guess parameters reals settings = []
  fits : AllFit value guess.length tried
  left : o.evaluations < settings.budget

variable [Magnitudes F]

/-- An infinite residual is short enough exactly if the tolerance is infinite. -/
theorem norm_le_functionTolerance_iff {reals : List F}
    (admitted : violations guess parameters reals settings = []) {v : List F}
    (infinite : IsInfinite (norm v)) :
    norm v ≤ settings.functionTolerance ↔ IsInfinite settings.functionTolerance :=
  norm_le_iff_of_infinite infinite (functionTolerance_pos_of_violations admitted)

variable [SoundComparisons F]

/-- **Accepted residuals are numbers, finite unless the tolerance is infinite.** A solve of total
equations accepts no residual whose length is no number, and one of infinite length exactly if its
last check is reached with an infinite tolerance. Every other residual that is not finite and gets
there makes the root unacceptable. -/
theorem findRoot_norm {f : List (Dual F) → List (Dual F) → List (Dual F)}
    (computes : equations.Computes data guess.length parameters.length f)
    (settings : Settings F) : ∃ searched o events result,
      Yields (search settings.search (equations.atParameters data parameters).problem guess)
        searched o ∧
      Yields (findRoot equations guess parameters data settings).run events result ∧
      (∀ root, result = .ok root →
        root.norm = norm (residualAt f parameters root.point) ∧ isNaN root.norm = false ∧
        (isFinite settings.functionTolerance = true → isFinite root.norm = true)) ∧
      ((∃ root, result = .ok root ∧ isFinite root.norm = false) ↔
        ReachesAcceptance settings guess parameters data.reals (residualAt f parameters)
          (Journal.account searched).tried o ∧
        IsInfinite settings.functionTolerance ∧
        IsInfinite (norm (residualAt f parameters o.point))) ∧
      (ReachesAcceptance settings guess parameters data.reals (residualAt f parameters)
          (Journal.account searched).tried o →
        isFinite (norm (residualAt f parameters o.point)) = false →
        ¬(IsInfinite settings.functionTolerance ∧
          IsInfinite (norm (residualAt f parameters o.point))) →
        result = .error (.unacceptableRoot (norm (residualAt f parameters o.point))
          settings.functionTolerance)) := by
  obtain ⟨searched, o, events, ran, report, solved, -⟩ := exists_judged computes settings
  have table := classified parameters data.reals report
  refine ⟨searched, o, events, _, ran, solved, fun root accepted => ?_, ⟨?_, ?_⟩, ?_⟩
  · obtain ⟨admitted, -, -, short, rfl⟩ := (table.ok_iff root).mp accepted
    have number := Magnitudes.isNaN_of_le short
    refine ⟨rfl, number, fun bounded => isFinite_iff.mpr ⟨number, fun infinite => ?_⟩⟩
    have unbounded := (norm_le_functionTolerance_iff admitted infinite).mp short
    exact (isFinite_iff.mp bounded).2 unbounded
  · rintro ⟨root, accepted, unbounded⟩
    obtain ⟨admitted, fits, left, short, rfl⟩ := (table.ok_iff root).mp accepted
    have infinite : IsInfinite (norm (residualAt f parameters o.point)) :=
      ⟨unbounded, Magnitudes.isNaN_of_le short⟩
    have tolerance := (norm_le_functionTolerance_iff admitted infinite).mp short
    exact ⟨⟨admitted, fits, left⟩, tolerance, infinite⟩
  · rintro ⟨⟨admitted, fits, left⟩, tolerance, infinite⟩
    have short := (norm_le_functionTolerance_iff admitted infinite).mpr tolerance
    exact ⟨_, (table.ok_iff _).mpr ⟨admitted, fits, left, short, rfl⟩, infinite.1⟩
  · rintro ⟨admitted, fits, left⟩ unbounded refused
    refine (table.unacceptable_iff _ _).mpr ⟨admitted, fits, left, fun short => ?_, rfl, rfl⟩
    have infinite : IsInfinite (norm (residualAt f parameters o.point)) :=
      ⟨unbounded, Magnitudes.isNaN_of_le short⟩
    exact refused ⟨(norm_le_functionTolerance_iff admitted infinite).mp short, infinite⟩

/-- A quotient that is infinite everywhere. -/
def overflowing (unknowns _parameters : List (Dual Float)) : List (Dual Float) :=
  unknowns.map fun x => Dual.constant 1 / (x - x)

/-- Equations whose residual is infinite everywhere. -/
def overflowingEquations : Equations Float where
  residual _ unknowns parameters := .ok (overflowing unknowns parameters)

/-- A search that stops at its start, with the residual infinite there, and a tolerance that admits
every number. -/
theorem findRoot_norm_overflowing :
    overflowingEquations.Computes {} 1 1 overflowing ∧ ∃ searched o events result,
      Yields (search (Settings.search ⟨1e-10, infinity, 1000⟩)
        (overflowingEquations.atParameters {} [1]).problem ([1] : List Float)) searched o ∧
      Yields (findRoot overflowingEquations [1] [1] {} ⟨1e-10, infinity, 1000⟩).run events result ∧
      ((∃ root, result = .ok root ∧ isFinite root.norm = false) ↔
        ReachesAcceptance ⟨1e-10, infinity, 1000⟩ [1] [1] [] (residualAt overflowing [1])
          (Journal.account searched).tried o ∧
        IsInfinite (infinity : Float) ∧
        IsInfinite (norm (residualAt overflowing [1] o.point))) := by
  have computes : overflowingEquations.Computes {} [(1 : Float)].length [(1 : Float)].length
      overflowing := fun _ _ _ _ => rfl
  obtain ⟨searched, o, events, result, ran, solved, -, accepted, -⟩ :=
    findRoot_norm computes ⟨1e-10, infinity, 1000⟩
  exact ⟨computes, searched, o, events, result, ran, solved, accepted⟩

/-- The arguments break no precondition, and a root is accepted whose residual is infinite. -/
theorem findRoot_overflowing_accepted :
    violations [1] [1] [] (⟨1e-10, infinity, 1000⟩ : Settings Float) = [] ∧
      ((findRoot overflowingEquations [1] [1] {} ⟨1e-10, infinity, 1000⟩).run.run.run
        #[]).1.toOption.map (fun result => result.toOption.map fun root => isFinite root.norm) =
          some (some false) := by
  constructor
  · decide +kernel
  · decide +kernel

end ImplicitDiff.Solver
