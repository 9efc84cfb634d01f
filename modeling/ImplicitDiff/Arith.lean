/-! # Arithmetic without laws

`Arith F` names the operations that the library needs of a number type and states nothing about
them. Machine floats round, overflow and carry a value that is no number, so whatever holds of every
instance holds of them too; exact fields are further instances. Every algorithm keeps one order of
operations, because in a type without laws the order is part of the result.
-/

namespace ImplicitDiff

/-- The operations of a number type. A comparison that involves a value that is no number is false,
and `max` and `min` then return the other operand. -/
class Arith (F : Type) extends Zero F, One F, Add F, Sub F, Mul F, Div F, Neg F, BEq F, LT F, LE F,
    Max F, Min F, IntCast F, OfScientific F where
  /-- The strict order is decided. -/
  decLt : DecidableLT F
  /-- The weak order is decided. -/
  decLe : DecidableLE F
  /-- The magnitude. -/
  abs : F → F
  /-- The unit with the sign of the argument; a zero has a sign of its own. -/
  sign : F → F
  /-- The square root. -/
  sqrt : F → F
  /-- The exponential. -/
  exp : F → F
  /-- The natural logarithm. -/
  log : F → F
  /-- The sine. -/
  sin : F → F
  /-- The cosine. -/
  cos : F → F
  /-- The hyperbolic tangent. -/
  tanh : F → F
  /-- The power with an exponent of the same type. -/
  pow : F → F → F
  /-- Whether the value is a number and not infinite. -/
  isFinite : F → Bool
  /-- Whether the value is no number. -/
  isNaN : F → Bool
  /-- The distance from one to the next larger number. -/
  epsilon : F
  /-- A value above every number. -/
  infinity : F
  /-- A value that is no number. -/
  nan : F

namespace Arith

variable {F : Type} [Arith F]

instance : DecidableLT F := decLt

instance : DecidableLE F := decLe

/-- The square-and-multiply loop: `acc * base ^ n`, where the factors enter from the lowest bit of
`n` upwards. The base is not squared once no bit is left. -/
def powLoop (base acc : F) (n : Nat) : F :=
  let acc := if n % 2 = 1 then acc * base else acc
  if n / 2 = 0 then acc else powLoop (base * base) acc (n / 2)
termination_by n
decreasing_by omega

/-- The power with an integer exponent; a negative exponent is the reciprocal of the positive power,
taken last. -/
def powInt (base : F) (n : Int) : F :=
  let power := powLoop base 1 n.natAbs
  if n < 0 then 1 / power else power

end Arith

/-- The larger operand, the first of two equal ones, and the other one of a value that is no number.
-/
def larger {F : Type} [LT F] [DecidableLT F] (isNaN : F → Bool) (a b : F) : F :=
  if isNaN a then b else if a < b then b else a

/-- The smaller operand, the first of two equal ones, and the other one of a value that is no
number. -/
def smaller {F : Type} [LT F] [DecidableLT F] (isNaN : F → Bool) (a b : F) : F :=
  if isNaN a then b else if b < a then b else a

/-- Binary floating point with 64 bits. -/
instance : Arith Float where
  zero := 0
  one := 1
  intCast := Float.ofInt
  max := larger Float.isNaN
  min := smaller Float.isNaN
  decLt := Float.decLt
  decLe := Float.decLe
  abs := Float.abs
  sign a := if a.isNaN then a else if a.toBits >>> 63 = 1 then -1 else 1
  sqrt := Float.sqrt
  exp := Float.exp
  log := Float.log
  sin := Float.sin
  cos := Float.cos
  tanh := Float.tanh
  pow := Float.pow
  isFinite := Float.isFinite
  isNaN := Float.isNaN
  epsilon := Float.ofBits 0x3CB0000000000000
  infinity := Float.ofBits 0x7FF0000000000000
  nan := Float.ofBits 0x7FF8000000000000

/-- Binary floating point with 32 bits. -/
instance : Arith Float32 where
  zero := 0
  one := 1
  intCast := Float32.ofInt
  max := larger Float32.isNaN
  min := smaller Float32.isNaN
  decLt := Float32.decLt
  decLe := Float32.decLe
  abs := Float32.abs
  sign a := if a.isNaN then a else if a.toBits >>> 31 = 1 then -1 else 1
  sqrt := Float32.sqrt
  exp := Float32.exp
  log := Float32.log
  sin := Float32.sin
  cos := Float32.cos
  tanh := Float32.tanh
  pow := Float32.pow
  isFinite := Float32.isFinite
  isNaN := Float32.isNaN
  epsilon := Float32.ofBits 0x34000000
  infinity := Float32.ofBits 0x7F800000
  nan := Float32.ofBits 0x7FC00000

end ImplicitDiff
