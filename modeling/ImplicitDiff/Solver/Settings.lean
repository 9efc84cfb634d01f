import ImplicitDiff.RootSearch.Basic

/-! # Settings of a solve

A solve stops by the step and accepts by the residual: the relative tolerance bounds the last trust
radius, the function tolerance the length of the residual at the root.
-/

namespace ImplicitDiff

/-- How small the tolerances of a number type are if nothing else is said. -/
class Precision (F : Type) where
  /-- The tolerance for steps, relative to the point. -/
  step : F
  /-- The tolerance for residuals. -/
  residual : F

instance : Precision Float := { step := 1e-10, residual := 1e-6 }

instance : Precision Float32 := { step := 1e-6, residual := 1e-4 }

/-- The usual settings of a root search. -/
def RootSearch.Settings.usual {F : Type} [Arith F] [Precision F] : RootSearch.Settings F :=
  { tolerance := Precision.step, budget := 1000, factor := 100.0 }

namespace Solver

/-- The settings of a solve. -/
structure Settings (F : Type) where
  /-- The radius, relative to the scaled length of the unknowns, at which the search has converged.
  -/
  relativeTolerance : F
  /-- The largest length of a residual at a root. -/
  functionTolerance : F
  /-- A search that makes this many evaluations of the residual has failed, whatever it found. -/
  budget : Nat
deriving Repr

namespace Settings

variable {F : Type}

/-- The usual settings of a solve. -/
def usual [Precision F] : Settings F :=
  { relativeTolerance := Precision.step, functionTolerance := Precision.residual, budget := 1000 }

/-- The settings of the root search within a solve. -/
def search [Arith F] (s : Settings F) : RootSearch.Settings F :=
  { tolerance := s.relativeTolerance, budget := s.budget, factor := 100.0 }

/-- Whether two settings agree. A tolerance that is no number agrees with none. -/
instance [BEq F] : BEq (Settings F) where
  beq s t := s.relativeTolerance == t.relativeTolerance &&
    s.functionTolerance == t.functionTolerance && s.budget == t.budget

end Settings

end Solver

end ImplicitDiff
