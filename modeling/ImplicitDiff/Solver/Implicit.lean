import ImplicitDiff.Solver.Root

/-! # Roots as functions of the parameters

Where the Jacobian with respect to the unknowns has an inverse, a root is a function of the
parameters, and differentiating `f (x (y), y) = 0` gives its derivative without looking at how the
root was found: the solution of a linear system with that Jacobian as its matrix and the negated
Jacobian with respect to the parameters on the right. On a tape a root is therefore one node, with
this block of derivatives from the parameters to the unknowns. The search itself is not recorded.
-/

namespace ImplicitDiff.Solver

variable {F : Type} [Arith F]

/-- The derivative of a root with respect to the parameters, one row for each unknown. -/
def rootDerivative (equations : Equations F) (root parameters : List F) (data : Data F) :
    SolveM F (Rows F) := do
  let byUnknowns ← (equations.atParameters data parameters).jacobian root
  let byParameters ← (equations.atUnknowns data root).jacobian parameters
  if byUnknowns.length ≠ root.length then
    throw (.dimensionMismatch root.length byUnknowns.length)
  let negated := byParameters.map fun row => row.map fun d => -d
  match ← (byUnknowns.solveRows? negated : Except Fault (Option (Rows F))) with
  | none => throw .singularJacobian
  | some block =>
    note (F := F) (.differentiated root.length parameters.length)
    return block

/-- A solve that may record on the active tape. -/
abbrev TracedSolveM (F : Type) := ExceptT (Failure F) (RecordM F)

/-- A solve that does not record, as part of one that may. -/
def SolveM.record {α : Type} (body : SolveM F α) : TracedSolveM F α :=
  ExceptT.mk (RecordM.ofSearch body.run)

/-- A root whose unknowns are the outputs of a node on the active tape, with the parameters as the
node's parameters. If no parameter is tracked, the unknowns are constants. -/
def attach (equations : Equations F) (root : List F) (parameters : List (Traced F))
    (data : Data F) : TracedSolveM F (List (Traced F)) := do
  if parameters.any Traced.isTracked then
    if (← getThe (Recorder F)).tape.isNone then throwThe Fault .trackedParameters
    let block ← SolveM.record (rootDerivative equations root (parameters.map Traced.value) data)
    let node ← (Node.build (parameters.map Traced.index) block : Except Fault (Node F))
    let first ← RecordM.pushNode node
    return root.mapIdx fun i x => { value := x, index := first + i.toUInt32 }
  else return root.map Traced.constant

/-- Solves equations for the unknowns at traced parameters. -/
def solveTraced (equations : Equations F) (guess : List F) (parameters : List (Traced F))
    (data : Data F) (settings : Settings F) : TracedSolveM F (List (Traced F)) := do
  let root ← SolveM.record
    (findRoot equations guess (parameters.map Traced.value) data settings)
  attach equations root.point parameters data

/-- The values of a function that goes through a root, and the sum of the rows of its Jacobian at
`x`, each times its weight: `before` computes the parameters from `x`, and `after` the values from
the root as its unknowns and `x` as its parameters. -/
def weightedGradientThrough (equations : Equations F) (guess : List F) (data : Data F)
    (settings : Settings F) (before after : Function F) (x weights : List F) :
    TracedSolveM F (List F × List F) := do
  let through (inputs : List (Traced F)) : TracedSolveM F (List (Traced F)) := do
    let parameters ← before.eval (M := RecordM F) { unknowns := inputs }
    let root ← solveTraced equations guess parameters data settings
    after.eval (M := RecordM F) { unknowns := root, parameters := inputs }
  let (result, tape) ← (recorded x fun inputs => (through inputs).run)
  match result with
  | .error cause => throw cause
  | .ok outputs =>
    let gradient ← (pullBack tape x.length outputs weights : Except Fault (List F))
    return (outputs.map Traced.value, gradient)

end ImplicitDiff.Solver
