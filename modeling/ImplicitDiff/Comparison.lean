import ImplicitDiff.Arith

/-! # Comparing numbers

Numbers need not be in order: a value that is no number is neither below nor equal nor above
anything, itself included. All comparisons of two numbers are therefore stated side by side.
-/

namespace ImplicitDiff

open Arith

/-- All comparisons of two numbers. -/
structure Comparisons where
  /-- Whether they are equal. -/
  equal : Bool
  /-- Whether the first is below the second. -/
  below : Bool
  /-- Whether the first is below or equal to the second. -/
  atMost : Bool
  /-- Whether the first is above the second. -/
  above : Bool
  /-- Whether the first is above or equal to the second. -/
  atLeast : Bool
  /-- Their order, if they are in one. -/
  order : Option Ordering
deriving Repr

/-- Compares two numbers. -/
def Comparisons.of {F : Type} [Arith F] (a b : F) : Comparisons :=
  { equal := a == b
    below := decide (a < b)
    atMost := decide (a ≤ b)
    above := decide (b < a)
    atLeast := decide (b ≤ a)
    order :=
      if a < b then some .lt else if b < a then some .gt else if a == b then some .eq else none }

end ImplicitDiff
