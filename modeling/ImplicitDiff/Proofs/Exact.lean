import Mathlib.Algebra.Field.Rat
import Mathlib.Algebra.Order.Field.Basic
import Mathlib.Algebra.Order.Ring.Rat
import Mathlib.Tactic
import ImplicitDiff.Program.Basic

/-! # Exact arithmetic

`Arith` states no laws. Where a result needs some, the operations are those of a field, and of an
ordered field where comparisons enter. Nothing is said of roots, exponentials and the other
elementary functions, so the results hold whatever these compute. The inverse of zero is zero.
-/

namespace ImplicitDiff

/-- Numbers whose four operations are those of a field, and whose test for equality is exact. -/
class ExactField (F : Type) extends Field F, Arith F where
  /-- The test for equality is exact. -/
  beq_iff_eq (a b : F) : (a == b) = true ↔ a = b

instance ExactField.lawfulBEq {F : Type} [ExactField F] : LawfulBEq F where
  eq_of_beq := (ExactField.beq_iff_eq _ _).mp
  rfl := (ExactField.beq_iff_eq _ _).mpr rfl

/-- Exact numbers that are in order. The sign of zero is not determined. -/
class ExactOrderedField (F : Type) extends ExactField F, LinearOrder F, IsStrictOrderedRing F where
  /-- The magnitude is the absolute value. -/
  abs_eq (a : F) : Arith.abs a = |a|
  /-- Positive numbers have the sign one. -/
  sign_of_pos (a : F) : 0 < a → Arith.sign a = 1
  /-- Negative numbers have the sign minus one. -/
  sign_of_neg (a : F) : a < 0 → Arith.sign a = -1

namespace Arith

variable {F : Type} [ExactField F]

/-- Each round moves the lowest bit of the exponent over to `acc` and squares the base. -/
theorem powLoop_eq (base acc : F) (n : Nat) : powLoop base acc n = acc * base ^ n := by
  induction n using Nat.strong_induction_on generalizing base acc with
  | _ n ih =>
    have bits : n = 2 * (n / 2) + n % 2 := by omega
    rw [powLoop]
    obtain even | odd : n % 2 = 0 ∨ n % 2 = 1 := by omega
    · have idle : ¬n % 2 = 1 := by omega
      simp only [if_neg idle]
      split_ifs with done
      · obtain rfl : n = 0 := by omega
        rw [pow_zero, mul_one]
      · rw [ih _ (by omega)]
        conv_rhs => rw [bits, even]
        rw [add_zero, pow_mul, pow_two]
    · simp only [if_pos odd]
      split_ifs with done
      · obtain rfl : n = 1 := by omega
        rw [pow_one]
      · rw [ih _ (by omega)]
        conv_rhs => rw [bits, odd]
        rw [pow_succ, pow_mul, pow_two]
        ring

theorem powInt_eq (base : F) (n : Int) : powInt base n = base ^ n := by
  unfold powInt
  simp only [powLoop_eq, one_mul]
  split_ifs with below
  · obtain ⟨m, rfl⟩ := Int.eq_negSucc_of_lt_zero below
    simp
  · obtain ⟨m, rfl⟩ := Int.eq_ofNat_of_zero_le (not_lt.mp below)
    simp

end Arith

/-- The rational numbers are exact. Functions without rational values stand for nothing here, and
the mark of a missing number is one that no length is. -/
instance : ExactOrderedField ℚ where
  __ := (inferInstance : Field ℚ)
  __ := (inferInstance : IsStrictOrderedRing ℚ)
  abs := fun a => |a|
  sign a := if 0 ≤ a then 1 else -1
  decLt := inferInstance
  decLe := inferInstance
  sqrt := id
  exp := id
  log := id
  sin := id
  cos := id
  tanh := id
  pow a _ := a
  isFinite _ := true
  isNaN _ := false
  epsilon := 0
  infinity := 0
  nan := -1
  beq_iff_eq _ _ := beq_iff_eq
  abs_eq _ := rfl
  sign_of_pos _ positive := if_pos positive.le
  sign_of_neg _ negative := if_neg (not_le.mpr negative)

example : Arith.powInt (2 : ℚ) (-3) = 1 / 8 := by decide +kernel

end ImplicitDiff
