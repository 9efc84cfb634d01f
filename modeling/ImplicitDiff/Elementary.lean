import ImplicitDiff.Arith

/-! # Elementary functions and their slopes

One table serves both ways of differentiating: a function of one number is given by its value and by
the factor that a change of the argument is multiplied with. Parts that value and slope share, such
as the root in the slope of the root, are computed alike in both, so they agree to the last bit.
-/

namespace ImplicitDiff

open Arith

/-- A function of one number with a slope of its own. -/
inductive Elementary (F : Type) where
  /-- The square root. -/
  | sqrt
  /-- The exponential. -/
  | exp
  /-- The natural logarithm. -/
  | log
  /-- The sine. -/
  | sin
  /-- The cosine. -/
  | cos
  /-- The hyperbolic tangent. -/
  | tanh
  /-- The magnitude. -/
  | abs
  /-- The power with a fixed integer exponent. -/
  | powInt (exponent : Int)
  /-- The power with a fixed exponent of the number type. -/
  | pow (exponent : F)
deriving Repr

namespace Elementary

variable {F : Type} [Arith F]

/-- The value of the function at `x`. -/
def value : Elementary F → F → F
  | .sqrt, x => Arith.sqrt x
  | .exp, x => Arith.exp x
  | .log, x => Arith.log x
  | .sin, x => Arith.sin x
  | .cos, x => Arith.cos x
  | .tanh, x => Arith.tanh x
  | .abs, x => Arith.abs x
  | .powInt n, x => Arith.powInt x n
  | .pow c, x => Arith.pow x c

/-- The exponent below another one. Exponents are 32-bit words, and below the least one comes the
greatest. -/
def exponentBelow (n : Int) : Int := if n = -2147483648 then 2147483647 else n - 1

/-- The slope of the function at `x`. -/
def slope : Elementary F → F → F
  | .sqrt, x => 1 / (Arith.sqrt x + Arith.sqrt x)
  | .exp, x => Arith.exp x
  | .log, x => 1 / x
  | .sin, x => Arith.cos x
  | .cos, x => -Arith.sin x
  | .tanh, x => 1 - Arith.tanh x * Arith.tanh x
  | .abs, x => Arith.sign x
  | .powInt n, x => (n : F) * Arith.powInt x (exponentBelow n)
  | .pow c, x => c * Arith.pow x (c - 1)

end Elementary

/-- The four operations on two numbers. -/
inductive Operation where
  /-- The sum. -/
  | add
  /-- The difference. -/
  | sub
  /-- The product. -/
  | mul
  /-- The quotient. -/
  | div
deriving DecidableEq, Repr

/-- The operation on plain numbers. -/
def Operation.value {F : Type} [Arith F] : Operation → F → F → F
  | .add, a, b => a + b
  | .sub, a, b => a - b
  | .mul, a, b => a * b
  | .div, a, b => a / b

end ImplicitDiff
