import ImplicitDiff.Elementary

/-! # Dual numbers

A dual number carries a value and the rate at which it changes in one fixed direction. Arithmetic on
dual numbers therefore differentiates while it evaluates: one run along the `j`-th unit direction
gives the `j`-th column of a Jacobian. Dual numbers are compared by their values alone.
-/

namespace ImplicitDiff

open Arith

/-- A value together with its tangent. -/
structure Dual (F : Type) where
  /-- The value. -/
  primal : F
  /-- The rate of change along the chosen direction. -/
  tangent : F
deriving Repr

namespace Dual

variable {F : Type} [Arith F]

/-- A number that does not change. -/
def constant (c : F) : Dual F := ⟨c, 0⟩

/-- The number that the direction varies at unit rate. -/
def seeded (c : F) : Dual F := ⟨c, 1⟩

instance : Add (Dual F) where
  add a b := ⟨a.primal + b.primal, a.tangent + b.tangent⟩

instance : Sub (Dual F) where
  sub a b := ⟨a.primal - b.primal, a.tangent - b.tangent⟩

instance : Mul (Dual F) where
  mul a b := ⟨a.primal * b.primal, a.primal * b.tangent + a.tangent * b.primal⟩

/-- The quotient goes through the reciprocal of the divisor, which the tangent uses twice more. -/
instance : Div (Dual F) where
  div a b :=
    let inverse := 1 / b.primal
    ⟨a.primal * inverse,
      (a.tangent * b.primal - a.primal * b.tangent) * inverse * inverse⟩

instance : Neg (Dual F) where
  neg a := ⟨-a.primal, -a.tangent⟩

/-- The chain rule for one elementary function. -/
def elementary (f : Elementary F) (a : Dual F) : Dual F :=
  ⟨f.value a.primal, a.tangent * f.slope a.primal⟩

/-- The operation on two dual numbers. -/
def operate : Operation → Dual F → Dual F → Dual F
  | .add, a, b => a + b
  | .sub, a, b => a - b
  | .mul, a, b => a * b
  | .div, a, b => a / b

/-- The operation with a plain number on the right, which has no tangent to carry. -/
def operateRight : Operation → Dual F → F → Dual F
  | .add, a, c => ⟨a.primal + c, a.tangent⟩
  | .sub, a, c => ⟨a.primal - c, a.tangent⟩
  | .mul, a, c => ⟨a.primal * c, a.tangent * c⟩
  | .div, a, c => ⟨a.primal / c, a.tangent / c⟩

/-- The operation with a plain number on the left. -/
def operateLeft : Operation → F → Dual F → Dual F
  | .add, c, a => ⟨c + a.primal, a.tangent⟩
  | .sub, c, a => ⟨c - a.primal, -a.tangent⟩
  | .mul, c, a => ⟨c * a.primal, c * a.tangent⟩
  | .div, c, a =>
    let inverse := 1 / a.primal
    ⟨c * inverse, -c * a.tangent * inverse * inverse⟩

end Dual

end ImplicitDiff
