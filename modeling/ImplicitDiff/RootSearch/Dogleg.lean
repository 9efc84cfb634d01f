import ImplicitDiff.Dense.Lu

/-! # The dogleg step

Near a point the equations are replaced by a linear model, and a step is trusted only as far as a
radius, measured in variables that are scaled one by one. The step that solves the model is taken if
it stays inside. If it does not, the path bends: it first runs against the gradient, down to the
lowest point in that direction, and from there straight towards the solution, and the step ends
where the path leaves the region.
-/

namespace ImplicitDiff

open Arith

variable {F : Type} [Arith F]

/-- The entries in scaled variables. -/
def stretch (scale v : List F) : List F := v.zipWith (fun x d => d * x) scale

/-- The entries of a vector that is given in scaled variables. -/
def shrink (scale v : List F) : List F := v.zipWith (fun z d => z / d) scale

/-- The length in scaled variables. -/
def scaledNorm (scale v : List F) : F := norm (stretch scale v)

/-- The step of the given length against a gradient. -/
def descend (gradient : List F) (distance : F) : List F :=
  let factor := distance / norm gradient
  gradient.map fun g => -g * factor

/-- The point where the segment from `near`, inside the radius, to `far`, outside of it, crosses it.
Its place on the segment solves a quadratic equation, by whichever of the two forms of the solution
adds numbers of one sign. -/
def crossing (radius : F) (near far : List F) : List F :=
  let leg := far.zipWith (fun z s => z - s) near
  let a := dot leg leg
  let b := (1 + 1) * dot near leg
  let c := dot near near - radius * radius
  let root := sqrt (max (b * b - 4.0 * a * c) 0)
  let place := if 0 ≤ b then -(c + c) / (b + root) else (root - b) / (a + a)
  near.zipWith (fun s v => s + place * v) leg

/-- The linear model of equations at a point. -/
structure LinearModel (F : Type) where
  /-- The residual at the point. -/
  residual : List F
  /-- The matrix that the residual changes with. -/
  jacobian : Rows F
  /-- The scale of each unknown. -/
  scale : List F
deriving Repr

namespace LinearModel

/-- The step to the solution of the model, if its matrix has factors. -/
def newtonStep? (m : LinearModel F) : Option (List F) :=
  m.jacobian.solve? (m.residual.map fun r => -r)

/-- The gradient of half the squared length of the residual, in scaled variables. -/
def gradient (m : LinearModel F) : List F :=
  shrink m.scale (m.jacobian.applyTranspose m.residual)

/-- The way against the gradient to the lowest point of the model in that direction, infinite if the
model does not change along it. -/
def steepestDistance (m : LinearModel F) : F :=
  let slope := norm m.gradient
  let rise := norm (m.jacobian.apply (shrink m.scale m.gradient))
  if rise == 0 then infinity else slope * (slope / rise) * (slope / rise)

/-- The step where the bent path leaves the radius; `target` is the step that solves the model, in
scaled variables, if one does. Without a gradient only the direction of the target is left, and
without a target there is no direction to go. -/
def bentStep (m : LinearModel F) (radius : F) (target : Option (List F)) : List F :=
  if norm m.gradient == 0 then
    match target with
    | some z =>
      let factor := radius / norm z
      shrink m.scale (z.map fun x => x * factor)
    | none => m.scale.map fun _ => 0
  else
    let distance := m.steepestDistance
    let straight := descend m.gradient (min distance radius)
    shrink m.scale <|
      match target with
      | some z =>
        if distance < radius then crossing radius (descend m.gradient distance) z else straight
      | none => straight

/-- The step inside the radius. -/
def dogleg (m : LinearModel F) (radius : F) : List F :=
  match m.newtonStep? with
  | some p =>
    let target := stretch m.scale p
    if norm target ≤ radius then p else m.bentStep radius (some target)
  | none => m.bentStep radius none

end LinearModel

end ImplicitDiff
