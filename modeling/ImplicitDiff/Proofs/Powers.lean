import Mathlib.Tactic
import ImplicitDiff.Proofs.Extended
import ImplicitDiff.Traced

/-! # Integer powers as products

An integer power is differentiated by its slope `n * x ^ (n - 1)`, whose inner exponent is negative
for the exponent zero. The product of `n` equal factors needs no such exponent. Where arithmetic is
exact but for infinite values, both have the same tangent, whatever the base and the tangent of the
base are, for every positive exponent. For the exponent zero the slope of the power is zero times a
reciprocal, which is no number at zero, while the product does not change at all.
-/

namespace ImplicitDiff

open Arith Extended

/-- The product of `n` equal factors, one after the other, from one on. -/
def Dual.product {F : Type} [Arith F] (a : Dual F) : Nat → Dual F
  | 0 => constant 1
  | n + 1 => a.product n * a

variable {K : Type} [ExactOrderedField K]

/-! ## Slopes of powers -/

/-- The loop never leaves the numbers. -/
theorem powLoop_number (base acc : K) (n : Nat) :
    powLoop (number base) (number acc) n = number (powLoop base acc n) := by
  induction n using Nat.strong_induction_on generalizing base acc with
  | _ n ih =>
    rw [powLoop]
    conv_rhs => rw [powLoop]
    split_ifs
    · rfl
    · rfl
    · exact ih _ (by omega) ..
    · exact ih _ (by omega) ..

theorem powInt_number (base : K) (n : Nat) : powInt (number base) n = number (base ^ n) := by
  have positive : ¬(n : Int) < 0 := by omega
  rw [powInt, if_neg positive, one_eq, powLoop_number, powLoop_eq, one_mul, Int.natAbs_natCast]

private theorem powInt_number_neg_one (base : K) : powInt (number base) (-1) = 1 / number base := by
  have negative : (-1 : Int) < 0 := by decide
  rw [powInt, if_pos negative, one_eq, powLoop_number, powLoop_eq, one_mul, Int.natAbs_neg,
    Int.natAbs_one, pow_one]

theorem slope_powInt_succ (n : Nat) (x : K) :
    Elementary.slope (.powInt (n + 1 : Nat)) (number x) = number ((n + 1) * x ^ n) := by
  have exponent : Elementary.exponentBelow (n + 1 : Nat) = n := by
    rw [Elementary.exponentBelow, if_neg (by omega)]
    omega
  rw [Elementary.slope, exponent, powInt_number, intCast_eq, number_mul_number]
  push_cast
  rfl

/-- Zero times a reciprocal, which is infinite at zero. -/
theorem slope_powInt_zero (x : K) :
    Elementary.slope (.powInt 0) (number x) = if x = 0 then missing else 0 := by
  have exponent : Elementary.exponentBelow 0 = -1 := by decide
  rw [Elementary.slope, exponent, powInt_number_neg_one, intCast_eq, Int.cast_zero, one_eq]
  split_ifs with zero
  · subst zero
    rw [one_div_number_zero, number_mul_infinite, scale_zero]
  · rw [number_div_number _ zero, number_mul_number, zero_mul, zero_eq]

/-! ## Tangents of products -/

theorem product_primal (x : K) (t : Extended K) (n : Nat) :
    (Dual.product ⟨number x, t⟩ n).primal = number (x ^ n) := by
  induction n with
  | zero =>
    rw [pow_zero]
    rfl
  | succ n ih =>
    change (Dual.product ⟨number x, t⟩ n).primal * number x = _
    rw [ih, number_mul_number, pow_succ]

theorem product_tangent_succ (x : K) (t : Extended K) (n : Nat) :
    (Dual.product ⟨number x, t⟩ (n + 1)).tangent = t * number ((n + 1) * x ^ n) := by
  induction n with
  | zero =>
    change number 1 * t + number 0 * number x = _
    rw [number_mul_number, zero_mul, Extended.add_zero, Extended.mul_comm, Nat.cast_zero, zero_add,
      pow_zero, mul_one]
  | succ n ih =>
    change (Dual.product ⟨number x, t⟩ (n + 1)).primal * t +
      (Dual.product ⟨number x, t⟩ (n + 1)).tangent * number x = _
    have positive : (0 : K) < n + 1 := by positivity
    rw [product_primal, ih, mul_number_mul_number, Extended.mul_comm, mul_assoc, ← pow_succ,
      mul_number_add_mul_number _ _ positive]
    push_cast
    congr 2
    ring

/-! ## Powers against products -/

theorem powInt_primal (x : K) (t : Extended K) (n : Nat) :
    (Dual.elementary (.powInt n) ⟨number x, t⟩).primal = (Dual.product ⟨number x, t⟩ n).primal :=
  (powInt_number x n).trans (product_primal x t n).symm

private theorem powInt_tangent_succ (x : K) (t : Extended K) (n : Nat) :
    (Dual.elementary (.powInt (n + 1 : Nat)) ⟨number x, t⟩).tangent =
      (Dual.product ⟨number x, t⟩ (n + 1)).tangent := by
  rw [product_tangent_succ, ← slope_powInt_succ]
  rfl

/-- With the exponent zero, a finite tangent vanishes if the base is not zero. Otherwise nothing is
left that is a number. -/
theorem powInt_tangent_zero (x : K) (t : Extended K) :
    (Dual.elementary (.powInt 0) ⟨number x, t⟩).tangent =
      if x ≠ 0 ∧ isFinite t = true then 0 else missing := by
  change t * Elementary.slope (.powInt 0) (number x) = _
  rw [slope_powInt_zero]
  by_cases zero : x = 0
  · simp [zero, Extended.mul_comm t]
  · cases t with
    | number a => simp [zero, zero_eq, isFinite]
    | infinite p => simp [zero, zero_eq, isFinite, scale_zero]
    | missing => simp [isFinite]

/-- **Integer powers against products.** The power of a number has the value of the product. Its
tangent is that of the product for every positive exponent, and for the exponent zero unless the
base is zero or its tangent is infinite or no number; then the power has no tangent, while the
product has the tangent zero. What is recorded for the power is the derivative of the product, but
for the exponent zero at the base zero, where it is no number. -/
theorem powInt_against_product (n : Nat) (x : K) (t : Extended K) (i : Index) :
    (Dual.elementary (.powInt n) ⟨number x, t⟩).primal = (Dual.product ⟨number x, t⟩ n).primal ∧
    ((Dual.elementary (.powInt n) ⟨number x, t⟩).tangent = (Dual.product ⟨number x, t⟩ n).tangent ↔
      0 < n ∨ x ≠ 0 ∧ isFinite t = true) ∧
    (¬(0 < n ∨ x ≠ 0 ∧ isFinite t = true) →
      (Dual.elementary (.powInt n) ⟨number x, t⟩).tangent = missing ∧
        (Dual.product ⟨number x, t⟩ n).tangent = 0) ∧
    ∃ slope, Traced.elementary (.powInt n) ⟨number x, i⟩ =
        Traced.record (Dual.product (.seeded (number x)) n).primal [(i, slope)] ∧
      (slope = (Dual.product (.seeded (number x)) n).tangent ↔ 0 < n ∨ x ≠ 0) ∧
      (¬(0 < n ∨ x ≠ 0) → slope = missing) := by
  have recorded : Traced.elementary (.powInt n) ⟨number x, i⟩ =
      Traced.record (Dual.product (.seeded (number x)) n).primal
        [(i, Elementary.slope (.powInt n) (number x))] := by
    rw [Dual.seeded, ← powInt_primal]
    rfl
  have distinct : (missing : Extended K) ≠ 0 := nofun
  cases n with
  | zero =>
    have still : (Dual.product ⟨number x, t⟩ 0).tangent = 0 := rfl
    have constant : (Dual.product (.seeded (number x)) 0).tangent = 0 := rfl
    have slope := slope_powInt_zero x
    refine ⟨powInt_primal x t 0, ?_, fun fails => ⟨?_, still⟩, _, recorded, ?_, fun fails => ?_⟩
    · rw [Nat.cast_zero, powInt_tangent_zero, still]
      simp [distinct]
    · rw [Nat.cast_zero, powInt_tangent_zero, if_neg fun holds => fails (.inr holds)]
    · rw [Nat.cast_zero, slope, constant]
      simp [distinct]
    · rw [Nat.cast_zero, slope, if_pos (not_not.mp fun nonzero => fails (.inr nonzero))]
  | succ n =>
    have positive : 0 < n + 1 := n.succ_pos
    have slope : Elementary.slope (.powInt (n + 1 : Nat)) (number x) =
        (Dual.product (.seeded (number x)) (n + 1)).tangent := by
      rw [Dual.seeded, product_tangent_succ, slope_powInt_succ, one_eq, number_mul_number, one_mul]
    exact ⟨powInt_primal x t _, iff_of_true (powInt_tangent_succ x t n) (.inl positive),
      fun fails => absurd (.inl positive) fails, _, recorded, iff_of_true slope (.inl positive),
      fun fails => absurd (.inl positive) fails⟩

/-- The constant one is the power of zero with the exponent zero, but its tangent is no number, in
exact arithmetic and in floating point. -/
theorem power_of_zero_to_zero :
    (Dual.elementary (.powInt 0) (.seeded (0 : Extended ℚ))).tangent = missing ∧
    (Dual.product (.seeded (0 : Extended ℚ)) 0).tangent = 0 ∧
    isNaN (Dual.elementary (.powInt 0) (.seeded (0 : Float))).tangent = true ∧
    (Dual.product (.seeded (0 : Float)) 0).tangent = 0 := by
  exact ⟨by decide +kernel, by decide +kernel, by decide +kernel, rfl⟩

end ImplicitDiff
