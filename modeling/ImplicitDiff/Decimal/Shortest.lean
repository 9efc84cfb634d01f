import ImplicitDiff.Decimal.Binary

/-! # Shortest decimals

A binary number is written with the fewest decimal digits that still identify it: of the decimals
that round to it, the one on the coarsest grid of powers of ten, and of two on that grid the nearer.
All comparisons are exact, between natural numbers.
-/

namespace ImplicitDiff.Decimal

/-- A decimal number, `digits * 10 ^ exponent`. -/
structure Scientific where
  /-- The digits as one number. -/
  digits : Nat
  /-- The exponent of the last digit. -/
  exponent : Int
deriving DecidableEq, Repr

/-- The decimal without trailing zeros. -/
def Scientific.trim (d : Scientific) : Scientific :=
  if _trailing : d.digits ≠ 0 ∧ d.digits % 10 = 0 then
    trim { digits := d.digits / 10, exponent := d.exponent + 1 }
  else d
termination_by d.digits
decreasing_by exact Nat.div_lt_self (Nat.pos_of_ne_zero _trailing.1) (by decide)

/-- The exponent of the leading digit. -/
def Scientific.leading (d : Scientific) : Int := d.exponent + (Nat.toDigits 10 d.digits).length - 1

/-- A positive number with the ends of the interval of reals that round to it, on a grid of powers
of ten: all three are multiples of a common unit fraction of the grid's spacing. -/
structure Gridded where
  /-- The lower end. -/
  low : Nat
  /-- The number. -/
  center : Nat
  /-- The upper end. -/
  high : Nat
  /-- The spacing of the grid. -/
  spacing : Nat
  /-- Whether the ends belong to the interval. -/
  closed : Bool
deriving Repr

namespace Gridded

/-- Whether the `n`-th point of the grid rounds to the number. -/
def contains (g : Gridded) (n : Nat) : Bool :=
  (g.low < n * g.spacing || (g.closed && g.low == n * g.spacing)) &&
    (n * g.spacing < g.high || (g.closed && n * g.spacing == g.high))

/-- The nearest point of the grid that rounds to the number, if one does. It is a neighbour of the
number; of two that are equally near the upper one is taken. -/
def nearest? (g : Gridded) : Option Nat :=
  let below := g.center / g.spacing
  if g.contains below then
    if g.contains (below + 1) && (2 * below + 1) * g.spacing ≤ 2 * g.center then some (below + 1)
    else some below
  else if g.contains (below + 1) then some (below + 1)
  else none

end Gridded

namespace Binary

/-- The number on the grid of the multiples of `10 ^ exponent`. The ends of the interval lie at
quarters of the last bit. -/
def onGrid (b : Binary) (exponent : Int) : Gridded :=
  let factor := Nat.pow 2 (b.exponent - 2).toNat * Nat.pow 10 (-exponent).toNat
  { low := (4 * b.mantissa - if b.narrowBelow then 1 else 2) * factor
    center := 4 * b.mantissa * factor
    high := (4 * b.mantissa + 2) * factor
    spacing := Nat.pow 2 (2 - b.exponent).toNat * Nat.pow 10 exponent.toNat
    closed := b.mantissa % 2 = 0 }

/-- The exponent of the leading decimal digit: the number of digits before the point, or the number
of zeros behind it. -/
def leading (b : Binary) : Int :=
  let units := b.onGrid 0
  let whole := units.center / units.spacing
  if whole ≠ 0 then (Nat.toDigits 10 whole).length - 1
  else -(Nat.toDigits 10 ((units.spacing - 1) / units.center)).length

/-- All digits of the number. -/
def exact (b : Binary) : Scientific :=
  { digits := b.mantissa * Nat.pow 2 b.exponent.toNat * Nat.pow 5 (-b.exponent).toNat
    exponent := min b.exponent 0 }

/-- The shortest decimal that rounds to the number. Seventeen digits are enough for 64 bits; a wider
number that needs more is written exactly. -/
def shortest (b : Binary) : Scientific :=
  let shortened := (List.range 17).findSome? fun (places : Nat) =>
    let exponent := b.leading - places
    (b.onGrid exponent).nearest?.map fun digits => ({ digits, exponent } : Scientific)
  (shortened.getD b.exact).trim

end Binary

end ImplicitDiff.Decimal
