import ImplicitDiff.Arith
import ImplicitDiff.Solver.Failure
import ImplicitDiff.Solver.Settings

/-! # Screening of arguments

Arguments are screened before the equations are called for the first time. The first check that
fails, in a fixed order, decides what is reported.
-/

namespace ImplicitDiff.Solver

open Arith

variable {F : Type}

/-- A vector has to have entries. -/
def screenSize {α : Type} (name : String) (v : List α) : Except (InvalidInput F) Unit :=
  if v.isEmpty then .error (.emptyVector name) else .ok ()

variable [Arith F]

/-- The entries of a vector have to be finite. -/
def screenFinite (name : String) (v : List F) : Except (InvalidInput F) Unit :=
  match v.zipIdx.find? fun (x, _) => !isFinite x with
  | some (x, i) => .error (.nonFinite name i x)
  | none => .ok ()

/-- A value has to be greater than zero, which a value that is no number is not. -/
def screenPositive (name : String) (x : F) : Except (InvalidInput F) Unit :=
  if 0 < x then .ok () else .error (.nonPositive name x)

/-- Tolerances and the budget have to be greater than zero. -/
def Settings.screen (s : Settings F) : Except (InvalidInput F) Unit := do
  screenPositive "relative_tolerance" s.relativeTolerance
  screenPositive "function_tolerance" s.functionTolerance
  if s.budget = 0 then throw (.nonPositive "max_num_steps" 0)

/-- The checks of a solve, in order. -/
def screen (guess parameters reals : List F) (s : Settings F) : Except (InvalidInput F) Unit := do
  screenSize "initial guess" guess
  screenSize "parameter vector" parameters
  screenFinite "initial guess" guess
  screenFinite "parameter vector" parameters
  screenFinite "continuous data" reals
  s.screen

end ImplicitDiff.Solver
