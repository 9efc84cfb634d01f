import ImplicitDiff.Decimal.Shortest

/-! # How decimals are laid out

A layout says which decimals are written positionally and whether a whole number shows a point. The
other decimals have one digit before the point and an exponent.
-/

namespace ImplicitDiff.Decimal

/-- The choices of a layout. -/
structure Layout where
  /-- Whether a decimal whose leading digit has this exponent is written positionally. -/
  positional : Int → Bool
  /-- What follows a whole number that is written positionally. -/
  wholeEnding : String

/-- Always positional, a whole number without a point. -/
def Layout.plain : Layout := { positional := fun _ => true, wholeEnding := "" }

/-- Positional from one ten-thousandth up to below ten to the sixteenth, where a whole number ends
in a zero behind a point. -/
def Layout.tagged : Layout :=
  { positional := fun leading => decide (-4 ≤ leading ∧ leading < 16), wholeEnding := ".0" }

/-- The text of a decimal. -/
def Scientific.render (layout : Layout) (d : Scientific) : String :=
  let digits := Nat.toDigits 10 d.digits
  let zeros (count : Int) := List.replicate count.toNat '0'
  if layout.positional d.leading then
    if 0 ≤ d.exponent then String.ofList (digits ++ zeros d.exponent) ++ layout.wholeEnding
    else
      let whole := digits.length + d.exponent
      if 0 < whole then
        String.ofList (digits.take whole.toNat ++ '.' :: digits.drop whole.toNat)
      else String.ofList ('0' :: '.' :: zeros (-whole) ++ digits)
  else
    let mantissa := digits.take 1 ++ if digits.length = 1 then [] else '.' :: digits.drop 1
    String.ofList mantissa ++ "e" ++ toString d.leading

/-- The text of a magnitude. -/
def Magnitude.render (layout : Layout) : Magnitude → String
  | .nan => "NaN"
  | .infinite => "inf"
  | .zero => "0" ++ layout.wholeEnding
  | .finite value => value.shortest.render layout

/-- The text of a number. A zero keeps its sign, a value that is no number has none. -/
def Signed.render (layout : Layout) (x : Signed) : String :=
  match x.negative, x.magnitude with
  | true, .infinite | true, .zero | true, .finite _ => "-" ++ x.magnitude.render layout
  | _, _ => x.magnitude.render layout

/-- A number type with decimal texts. -/
class Decimals (F : Type) where
  /-- What the number is in its own format, which decides how many digits identify it. -/
  decode : F → Signed
  /-- What the number is in the format with 64 bits. -/
  decodeWide : F → Signed

instance : Decimals Float where
  decode x := Format.double.decode x.toBits.toNat
  decodeWide x := Format.double.decode x.toBits.toNat

instance : Decimals Float32 where
  decode x := Format.single.decode x.toBits.toNat
  decodeWide x := Format.double.decode x.toFloat.toBits.toNat

end ImplicitDiff.Decimal
