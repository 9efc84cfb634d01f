import ImplicitDiff.Tape.Basic

/-! # The reverse sweep

The sweep carries one adjoint for each variable: how much the seeded sum changes with it. It walks
the entries from the last to the first. An entry hands the adjoints of the variables that it defines
on to the variables that they depend on and clears them, so that in the end only independent
variables hold any. An adjoint that is zero is not handed on, whatever the multipliers are.
-/

namespace ImplicitDiff

variable {F : Type}

/-- Adds to the adjoint at a place. -/
def accumulate [Add F] (adjoints : Array F) (place : Index) (amount : F) :
    Except Fault (Array F) :=
  if bound : place.toNat < adjoints.size then
    .ok (adjoints.set place.toNat (adjoints[place.toNat] + amount))
  else .error .indexOutOfBounds

/-- Adds to the adjoint at a place, or to none for a constant. -/
def deposit [Add F] (adjoints : Array F) (place : Index) (amount : F) : Except Fault (Array F) :=
  if place = Index.constant then .ok adjoints else accumulate adjoints place amount

/-- Clears the adjoints of `count` places from `first` on. -/
def clearFrom [Zero F] (adjoints : Array F) (first count : Nat) : Array F :=
  (List.range count).foldl (fun adjoints i => adjoints.setIfInBounds (first + i) 0) adjoints

variable [Zero F] [Add F] [Mul F] [BEq F]

/-- Hands the adjoint of one output on to the parameters, along its row of the block. -/
def Node.propagateRow (n : Node F) (adjoints : Array F) (row : List F) (output : Nat) :
    Except Fault (Array F) := do
  let a ← fetch adjoints[output]?
  if a == 0 then pure adjoints
  else (n.params.zip row).foldlM (fun adjoints (p, s) => deposit adjoints p (a * s)) adjoints

/-- Hands the adjoints of all outputs on to the parameters and clears them. -/
def Node.propagate (n : Node F) (adjoints : Array F) : Except Fault (Array F) := do
  let first := n.firstOutput.toNat
  let held ← (List.range n.outputs).mapM fun i => fetch adjoints[first + i]?
  if held.all (· == 0) then pure adjoints
  else
    let adjoints ← n.sensitivity.zipIdx.foldlM
      (fun adjoints (row, i) => n.propagateRow adjoints row (first + i)) adjoints
    pure (clearFrom adjoints first n.outputs)

/-- Hands the adjoints of the variables of one entry on. The result of a linear entry is cleared
before its operands receive their shares. -/
def Entry.propagate (adjoints : Array F) : Entry F → Except Fault (Array F)
  | .node n => n.propagate adjoints
  | .linear result terms => do
    let a ← fetch adjoints[result.toNat]?
    if a == 0 then pure adjoints
    else
      terms.foldlM (fun adjoints (i, m) => accumulate adjoints i (m * a))
        (adjoints.setIfInBounds result.toNat 0)

namespace Tape

/-- The adjoints before the sweep: each seed is added at its place. -/
def seed (t : Tape F) (seeds : List (Index × F)) : Except Fault (Array F) :=
  seeds.foldlM (fun adjoints (i, s) => deposit adjoints i s)
    (Array.replicate t.size.toNat 0)

/-- The adjoints of all variables for the sum of the seeded variables, each times its seed. -/
def sweep (t : Tape F) (seeds : List (Index × F)) : Except Fault (Array F) := do
  let adjoints ← t.seed seeds
  t.entries.reverse.foldlM Entry.propagate adjoints

/-- The adjoints of all variables for one variable. -/
def sweepFrom [One F] (t : Tape F) (place : Index) : Except Fault (Array F) :=
  t.sweep [(place, 1)]

end Tape

end ImplicitDiff
