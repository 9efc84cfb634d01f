/-! # The exact values of binary floating point numbers

A finite number is a mantissa times a power of two. Which reals round to it depends on its
neighbours: the one below a power of two is only half as far away as the one above.
-/

namespace ImplicitDiff.Decimal

/-- A positive binary number, `mantissa * 2 ^ exponent`. -/
structure Binary where
  /-- The mantissa, which is positive. -/
  mantissa : Nat
  /-- The exponent of the last bit. -/
  exponent : Int
  /-- Whether the neighbour below is only half as far away as the neighbour above. -/
  narrowBelow : Bool
deriving Repr

/-- What a bit pattern stands for, the sign apart. -/
inductive Magnitude where
  /-- No number. -/
  | nan
  /-- Infinity. -/
  | infinite
  /-- Zero. -/
  | zero
  /-- A positive number. -/
  | finite (value : Binary)
deriving Repr

/-- A magnitude with a sign; a value that is no number has none that counts. -/
structure Signed where
  /-- Whether the sign bit is set. -/
  negative : Bool
  /-- The magnitude. -/
  magnitude : Magnitude
deriving Repr

/-- The widths of the fields of a binary format. The highest bit is the sign, the exponent follows,
the fraction is lowest. -/
structure Format where
  /-- The number of exponent bits. -/
  exponentBits : Nat
  /-- The number of fraction bits. -/
  fractionBits : Nat
deriving Repr

namespace Format

/-- The format with 64 bits. -/
def double : Format := { exponentBits := 11, fractionBits := 52 }

/-- The format with 32 bits. -/
def single : Format := { exponentBits := 8, fractionBits := 23 }

/-- The number of values of the fraction, which is the weight of the exponent field. -/
def fractions (f : Format) : Nat := Nat.pow 2 f.fractionBits

/-- The number of values of the exponent field. -/
def fields (f : Format) : Nat := Nat.pow 2 f.exponentBits

/-- The exponent of the last bit of the least numbers. -/
def leastExponent (f : Format) : Int := 2 - (f.fields / 2 : Nat) - f.fractionBits

/-- What a bit pattern stands for. Numbers with the least exponent field go without a leading one
and share their last bit with the next field; the largest field holds no finite numbers. -/
def decode (f : Format) (bits : Nat) : Signed :=
  let fraction := bits % f.fractions
  let field := bits / f.fractions % f.fields
  let magnitude :=
    if field + 1 = f.fields then if fraction = 0 then .infinite else .nan
    else if field = 0 then
      if fraction = 0 then .zero
      else .finite { mantissa := fraction, exponent := f.leastExponent, narrowBelow := false }
    else
      .finite {
        mantissa := f.fractions + fraction
        exponent := f.leastExponent + (field - 1 : Nat)
        narrowBelow := fraction = 0 && 1 < field }
  { negative := bits / f.fractions / f.fields % 2 = 1, magnitude }

end Format

end ImplicitDiff.Decimal
