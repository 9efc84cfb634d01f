import Mathlib.Analysis.SpecialFunctions.Pow.Real
import ImplicitDiff.Proofs.Exact

/-! # Exact arithmetic with square roots

The root search measures lengths, so it needs square roots besides the four operations, and it stops
at bounds that are written as decimals. Every number is finite here. The distance from one to the
next larger number is left open, because it is only a bound for rounding errors.
-/

namespace ImplicitDiff

open Arith

/-- Exact ordered numbers with square roots of those that are not negative. There is no infinite
number among them and none that is no number, and decimals have the value that they denote. -/
class ExactRoots (F : Type) [ExactOrderedField F] : Prop where
  /-- Every number is finite. -/
  isFinite_eq (a : F) : isFinite a = true
  /-- Every number is a number. -/
  isNaN_eq (a : F) : isNaN a = false
  /-- Roots are not negative. -/
  sqrt_nonneg {a : F} : 0 ≤ a → 0 ≤ sqrt a
  /-- The square of a root is the number. -/
  sqrt_mul_self {a : F} : 0 ≤ a → sqrt a * sqrt a = a
  /-- A decimal is a number over a power of ten. -/
  decimal (m e : Nat) : (OfScientific.ofScientific m true e : F) = m / 10 ^ e

theorem Arith.abs_eq {F : Type} [ExactOrderedField F] (a : F) : Arith.abs a = |a| :=
  ExactOrderedField.abs_eq a

namespace ExactRoots

variable {F : Type} [ExactOrderedField F] [ExactRoots F] {a b : F}

/-- A number that is not negative is the root of its square. -/
theorem sqrt_eq (nonneg : 0 ≤ a) (square : a * a = b) : sqrt b = a := by
  have below : 0 ≤ b := square ▸ mul_self_nonneg a
  exact (mul_self_inj (sqrt_nonneg below) nonneg).mp ((sqrt_mul_self below).trans square.symm)

end ExactRoots

/-- The real numbers are exact. -/
noncomputable instance : ExactOrderedField ℝ where
  __ := (inferInstance : Field ℝ)
  __ := (inferInstance : LinearOrder ℝ)
  __ := (inferInstance : IsStrictOrderedRing ℝ)
  beq a b := decide (a = b)
  abs := fun a => |a|
  sign a := if 0 ≤ a then 1 else -1
  decLt := inferInstance
  decLe := inferInstance
  sqrt := Real.sqrt
  exp := Real.exp
  log := Real.log
  sin := Real.sin
  cos := Real.cos
  tanh := Real.tanh
  pow a b := a ^ b
  isFinite _ := true
  isNaN _ := false
  epsilon := 0
  infinity := 0
  nan := -1
  beq_iff_eq _ _ := decide_eq_true_iff
  abs_eq _ := rfl
  sign_of_pos _ positive := if_pos positive.le
  sign_of_neg _ negative := if_neg (not_le.mpr negative)

instance : ExactRoots ℝ where
  isFinite_eq _ := rfl
  isNaN_eq _ := rfl
  sqrt_nonneg _ := Real.sqrt_nonneg _
  sqrt_mul_self := Real.mul_self_sqrt
  decimal m e := by
    rw [NNRatCast.ofScientific_eq_ite, if_pos rfl, NNRat.cast_divNat]
    simp

end ImplicitDiff
