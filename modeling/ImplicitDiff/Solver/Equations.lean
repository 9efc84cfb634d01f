import ImplicitDiff.Derivative
import ImplicitDiff.RootSearch.Run

/-! # Equations between unknowns and parameters

Equations `f (x, y) = 0` relate unknowns `x` to parameters `y`, given fixed data. They are a
function on dual numbers, so one definition gives residuals, by runs without a tangent, and exact
Jacobians with respect to either argument, by one more run for each of its entries. A call may write
messages, which nothing here reads. Every call and every message is noted in the journal.
-/

namespace ImplicitDiff.Solver

variable {F : Type}

/-- Data that equations read but are never differentiated by. -/
structure Data (F : Type) where
  /-- The real data. -/
  reals : List F := []
  /-- The integer data. -/
  integers : List Int := []
deriving Repr

/-- Equations as a function of data, unknowns and parameters. -/
structure Equations (F : Type) where
  /-- The residuals, one for each equation. -/
  residual : Data F → List (Dual F) → List (Dual F) → Except Fault (List (Dual F))
  /-- The messages that a call writes. -/
  messages : Data F → List (Dual F) → List (Dual F) → List (Message F) := fun _ _ _ => []

namespace Equations

/-- Numbers in a row. -/
def row (numbers : List (Dual F)) : Message F :=
  (numbers.map Piece.number).intersperse (.words ",")

/-- The equations that a program computes. A call writes its arguments. -/
def ofFunction [Arith F] (f : Function F) : Equations F where
  residual data unknowns parameters :=
    f.eval { unknowns, parameters, reals := data.reals, integers := data.integers }
  messages _ unknowns parameters :=
    [.words "x=" :: row unknowns ++ .words " y=" :: row parameters]

/-- Calls the equations. What they write is noted even if they end in a fault. -/
def call (s : Equations F) (data : Data F) (unknowns parameters : List (Dual F)) :
    SearchM F (List (Dual F)) := do
  note (.called unknowns parameters)
  (s.messages data unknowns parameters).forM fun message => note (.wrote message)
  s.residual data unknowns parameters

end Equations

/-- One of the two arguments of equations. -/
inductive Argument where
  /-- The unknowns. -/
  | unknowns
  /-- The parameters. -/
  | parameters
deriving DecidableEq, Repr

/-- Equations as a function of one argument, with the other one fixed. -/
structure Restriction (F : Type) where
  /-- The equations. -/
  equations : Equations F
  /-- Their data. -/
  data : Data F
  /-- The argument that varies. -/
  free : Argument
  /-- The value of the other argument. -/
  fixed : List F

namespace Restriction

variable [Arith F]

/-- Calls the equations with dual numbers for the free argument. -/
def call (r : Restriction F) (x : List (Dual F)) : SearchM F (List (Dual F)) := do
  let fixed := r.fixed.map Dual.constant
  let (unknowns, parameters) :=
    match r.free with
    | .unknowns => (x, fixed)
    | .parameters => (fixed, x)
  r.equations.call r.data unknowns parameters

/-- The residuals at a value of the free argument. -/
def residual (r : Restriction F) (x : List F) : SearchM F (List F) := do
  note (.evaluated x)
  return (← r.call (x.map Dual.constant)).map Dual.primal

/-- The Jacobian with respect to the free argument, one row for each equation. -/
def jacobian (r : Restriction F) (x : List F) : SearchM F (Rows F) := do
  note (.linearized x)
  return (← ImplicitDiff.jacobian r.call x).2

/-- The search for a value of the free argument that solves the equations. -/
def problem (r : Restriction F) : RootSearch.Problem F :=
  { residual := r.residual, jacobian := r.jacobian }

end Restriction

/-- The equations as a function of the unknowns. -/
def Equations.atParameters (s : Equations F) (data : Data F) (y : List F) : Restriction F :=
  { equations := s, data, free := .unknowns, fixed := y }

/-- The equations as a function of the parameters. -/
def Equations.atUnknowns (s : Equations F) (data : Data F) (x : List F) : Restriction F :=
  { equations := s, data, free := .parameters, fixed := x }

end ImplicitDiff.Solver
