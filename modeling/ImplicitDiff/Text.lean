import ImplicitDiff.Decimal.Layout
import ImplicitDiff.Traced

/-! # Texts of numbers

Messages write numbers positionally, log lines mark them as numbers with a point or an exponent.
Both widen a number to 64 bits first. A number that is shown for its own sake keeps to the digits of
its own format.
-/

namespace ImplicitDiff

open Decimal

variable {F : Type} [Decimals F]

/-- The number for its own sake. -/
def numberText (x : F) : String := (Decimals.decode x).render .plain

/-- The number inside a message. -/
def messageText (x : F) : String := (Decimals.decodeWide x).render .plain

/-- The number inside a log line. -/
def taggedText (x : F) : String := (Decimals.decodeWide x).render .tagged

/-- The value and the tangent, which is marked as the multiple of an infinitesimal. -/
def Dual.text (d : Dual F) : String := numberText d.primal ++ " + " ++ numberText d.tangent ++ "ε"

/-- The value; the place on a tape is not shown. -/
def Traced.text (a : Traced F) : String := numberText a.value

end ImplicitDiff
