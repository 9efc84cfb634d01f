import ImplicitDiff.Program.Basic
import ImplicitDiff.Tape.Sweep

/-! # Derivatives of functions

A Jacobian is built forwards, from one plain run and one run along each unit direction. A gradient,
and more generally a weighted sum of the rows of a Jacobian, is read off one recorded run by a
sweep.
-/

namespace ImplicitDiff

variable {F : Type} [Arith F]

/-- The point `x` as dual numbers, varied in its `j`-th entry. -/
def seededAt (x : List F) (j : Nat) : List (Dual F) :=
  x.mapIdx fun i c => if i = j then Dual.seeded c else Dual.constant c

/-- The values of a function at `x` and its Jacobian, one row for each value. The function is called
once without a seed, which decides the number of rows, and once for each column. A column that is
shorter leaves zeros and a longer one is cut. -/
def jacobian {M : Type → Type} [Monad M] (f : List (Dual F) → M (List (Dual F))) (x : List F) :
    M (List F × List (List F)) := do
  let values ← f (x.map Dual.constant)
  let columns ← (List.range x.length).mapM fun j => f (seededAt x j)
  let entry (column : List (Dual F)) (i : Nat) : F := (column[i]?.map Dual.tangent).getD 0
  return (values.map Dual.primal,
    (List.range values.length).map fun i => columns.map fun column => entry column i)

/-- A tape with one independent variable for each entry of `x`, and these variables. -/
def independents (x : List F) : Tape F × List (Traced F) :=
  x.foldl (fun (t, inputs) c => (t.allocate, inputs ++ [⟨c, t.size⟩])) ({}, [])

/-- Runs a computation on independent variables with values `x` and gives the tape that it leaves.
-/
def recorded {α : Type} (x : List F) (body : List (Traced F) → RecordM F α) :
    RecordM F (α × Tape F) :=
  let (blank, inputs) := independents x
  RecordM.onTape blank (body inputs)

/-- The gradient of a function of one value, by a sweep over its recorded run. -/
def gradient (f : List (Traced F) → RecordM F (Traced F)) (x : List F) : RecordM F (List F) := do
  let (output, tape) ← recorded x f
  if output.isTracked then
    let adjoints ← (tape.sweepFrom output.index : Except Fault (Array F))
    return adjoints.toList.take x.length
  else return List.replicate x.length 0

/-- The adjoints of the first `inputs` variables for the sum of the outputs, each times its weight.
Outputs that no tape tracks contribute nothing. -/
def pullBack (tape : Tape F) (inputs : Nat) (outputs : List (Traced F)) (weights : List F) :
    Except Fault (List F) :=
  if outputs.length ≠ weights.length then .error .weightCount
  else do
    let seeds := (outputs.zip weights).filterMap fun (output, w) =>
      if output.isTracked then some (output.index, w) else none
    return (← tape.sweep seeds).toList.take inputs

/-- The values of a function at `x`, and the sum of the rows of its Jacobian, each times its weight.
-/
def weightedGradient (f : List (Traced F) → RecordM F (List (Traced F))) (x weights : List F) :
    RecordM F (List F × List F) := do
  let (outputs, tape) ← recorded x f
  return (outputs.map Traced.value, ← pullBack tape x.length outputs weights)

end ImplicitDiff
