import Mathlib.Tactic
import ImplicitDiff.Proofs.FiniteSums

/-! # Magnitudes and infinite bounds

Magnitudes, roots, and products of what is not negative are not negative, so no length is. Where a
length is infinite it is therefore above all numbers: it is within a bound only if the bound is
infinite too, and within an infinite bound is everything that is a number. For machine floats this
is proved from their bits.
-/

namespace ImplicitDiff

open Arith

/-- What is never negative, and what lies within infinite bounds. -/
class Magnitudes (F : Type) [Arith F] : Prop extends FiniteSums F where
  /-- What is no number is within no bound. -/
  isNaN_of_le {a b : F} : a ≤ b → isNaN a = false
  /-- All numbers are within an infinite bound. -/
  le_of_infinite {a b : F} : IsInfinite b → 0 < b → isNaN a = false → a ≤ b
  /-- A bound of what is above all numbers is infinite. -/
  infinite_of_le {a b : F} : IsInfinite a → 0 < a → a ≤ b → IsInfinite b
  /-- What is infinite and not negative is positive. -/
  pos_of_infinite {a : F} : IsInfinite a → ¬a < 0 → 0 < a
  not_abs_lt_zero (a : F) : ¬Arith.abs a < 0
  not_max_lt_zero {a b : F} : ¬a < 0 → ¬b < 0 → ¬max a b < 0
  not_mul_lt_zero {a b : F} : ¬a < 0 → ¬b < 0 → ¬a * b < 0
  not_sqrt_lt_zero (a : F) : ¬sqrt a < 0

section Machine

open Float.Model Float.Model.UnpackedFloat

variable {spec : Format} {a b : UnpackedFloat}

/-- Patterns with the sign plus stand for nothing negative. -/
theorem unpack_lt_zero {b : BitVec spec.numBits} (sign : unpackSign b = 0#1) :
    (UnpackedFloat.unpack spec b).lt (.zero .positive) = false := by
  unfold UnpackedFloat.unpack
  rw [sign]
  dsimp only
  split_ifs <;> rfl

/-- Packing makes nothing negative. -/
theorem pack_lt_zero (above : a.lt (.zero .positive) = false) :
    (UnpackedFloat.unpack spec (UnpackedFloat.pack spec a)).lt (.zero .positive) = false := by
  rcases a with (_ | _) | _ | _ | ⟨_ | _, _, _, _⟩
  case notANumber =>
    rw [unpack_pack_notANumber]
    rfl
  case zero =>
    rw [UnpackedFloat.pack, unpack_packedZero]
    rfl
  case infinity.positive =>
    rw [unpack_pack_infinity]
    rfl
  case finite.positive =>
    refine unpack_lt_zero ?_
    unfold UnpackedFloat.pack
    dsimp only
    split_ifs <;> exact unpackSign_packComponents ..
  all_goals cases above

/-- Rounding keeps the sign. -/
theorem roundWithAccuracy_lt_zero (m : Nat) (e : Int) (accuracy : Accuracy) :
    (roundWithAccuracy spec .positive m e accuracy).lt (.zero .positive) = false := by
  unfold roundWithAccuracy
  dsimp only
  split_ifs <;> rfl

theorem abs_lt_zero : a.abs.lt (.zero .positive) = false := by
  cases a <;> rfl

theorem mul_lt_zero (first : a.lt (.zero .positive) = false)
    (second : b.lt (.zero .positive) = false) :
    (UnpackedFloat.mul spec a b).lt (.zero .positive) = false := by
  rcases a with (_ | _) | _ | _ | ⟨_ | _, _, _, _⟩
  case infinity.negative | finite.negative => cases first
  all_goals rcases b with (_ | _) | _ | _ | ⟨_ | _, _, _, _⟩
  case finite.positive.finite.positive => exact roundWithAccuracy_lt_zero ..
  all_goals first | rfl | cases second

theorem sqrt_lt_zero : (UnpackedFloat.sqrt spec a).lt (.zero .positive) = false := by
  rcases a with (_ | _) | _ | _ | ⟨_ | _, _, _, _⟩
  case finite.positive => exact roundWithAccuracy_lt_zero ..
  all_goals rfl

theorem isNaN_of_unpacked_le (within : a.le b = true) : a.isNaN = false := by
  cases a <;> first | rfl | cases within

theorem le_infinity (number : a.isNaN = false) : a.le (.infinity .positive) = true := by
  rcases a with (_ | _) | _ | _ | ⟨_ | _, _, _, _⟩ <;> first | rfl | cases number

theorem eq_infinity_of_le (within : (UnpackedFloat.infinity .positive).le b = true) :
    b = .infinity .positive := by
  rcases b with (_ | _) | _ | _ | ⟨_ | _, _, _, _⟩ <;> first | rfl | cases within

theorem zero_lt_of_infinite (infinite : a.isFinite = false ∧ a.isNaN = false)
    (above : a.lt (.zero .positive) = false) : (UnpackedFloat.zero .positive).lt a = true := by
  rcases a with (_ | _) | _ | _ | ⟨_ | _, _, _, _⟩
  case infinity.positive => rfl
  case infinity.negative => cases above
  case notANumber => cases infinite.2
  all_goals cases infinite.1

theorem Float.not_lt_zero_iff {a : Float} :
    ¬a < 0 ↔ a.toModel.unpack.lt (.zero .positive) = false := by
  rw [Float.lt_iff_unpack, Bool.not_eq_true]
  exact Iff.rfl

theorem Float32.not_lt_zero_iff {a : Float32} :
    ¬a < 0 ↔ a.toModel.unpack.lt (.zero .positive) = false := by
  rw [Float32.lt_iff_unpack, Bool.not_eq_true]
  exact Iff.rfl

instance : Magnitudes Float where
  isNaN_of_le within := isNaN_of_unpacked_le (Float.le_iff_unpack.mp within)
  le_of_infinite infinite positive number := by
    rw [Float.le_iff_unpack, Float.infinite_pos_iff.mp ⟨infinite, positive⟩]
    exact le_infinity number
  infinite_of_le infinite positive within := by
    rw [Float.le_iff_unpack, Float.infinite_pos_iff.mp ⟨infinite, positive⟩] at within
    exact (Float.infinite_pos_iff.mpr (eq_infinity_of_le within)).1
  pos_of_infinite infinite above := Float.lt_iff_unpack.mpr
    (zero_lt_of_infinite infinite (Float.not_lt_zero_iff.mp above))
  not_abs_lt_zero _ := Float.not_lt_zero_iff.mpr (pack_lt_zero abs_lt_zero)
  not_max_lt_zero {a b} first second := by
    change ¬(if a.isNaN then b else if a < b then b else a) < 0
    split_ifs
    · exact second
    · exact second
    · exact first
  not_mul_lt_zero first second := Float.not_lt_zero_iff.mpr (pack_lt_zero
    (mul_lt_zero (Float.not_lt_zero_iff.mp first) (Float.not_lt_zero_iff.mp second)))
  not_sqrt_lt_zero _ := Float.not_lt_zero_iff.mpr (pack_lt_zero sqrt_lt_zero)

instance : Magnitudes Float32 where
  isNaN_of_le within := isNaN_of_unpacked_le (Float32.le_iff_unpack.mp within)
  le_of_infinite infinite positive number := by
    rw [Float32.le_iff_unpack, Float32.infinite_pos_iff.mp ⟨infinite, positive⟩]
    exact le_infinity number
  infinite_of_le infinite positive within := by
    rw [Float32.le_iff_unpack, Float32.infinite_pos_iff.mp ⟨infinite, positive⟩] at within
    exact (Float32.infinite_pos_iff.mpr (eq_infinity_of_le within)).1
  pos_of_infinite infinite above := Float32.lt_iff_unpack.mpr
    (zero_lt_of_infinite infinite (Float32.not_lt_zero_iff.mp above))
  not_abs_lt_zero _ := Float32.not_lt_zero_iff.mpr (pack_lt_zero abs_lt_zero)
  not_max_lt_zero {a b} first second := by
    change ¬(if a.isNaN then b else if a < b then b else a) < 0
    split_ifs
    · exact second
    · exact second
    · exact first
  not_mul_lt_zero first second := Float32.not_lt_zero_iff.mpr (pack_lt_zero
    (mul_lt_zero (Float32.not_lt_zero_iff.mp first) (Float32.not_lt_zero_iff.mp second)))
  not_sqrt_lt_zero _ := Float32.not_lt_zero_iff.mpr (pack_lt_zero sqrt_lt_zero)

end Machine

variable {F : Type} [Arith F] [Magnitudes F]

private theorem not_largest_lt_zero (v : List F) : ¬largest v < 0 := by
  have stays (start : F) (above : ¬start < 0) :
      ¬v.foldl (fun m x => max m (Arith.abs x)) start < 0 := by
    induction v generalizing start with
    | nil => exact above
    | cons x v ih => exact ih _ (Magnitudes.not_max_lt_zero above (Magnitudes.not_abs_lt_zero x))
  exact stays 0 (FiniteSums.lt_irrefl 0)

/-- No length is negative. -/
theorem not_norm_lt_zero (v : List F) : ¬norm v < 0 := by
  have scale := not_largest_lt_zero v
  unfold norm
  dsimp only
  split_ifs
  · intro below
    have number := FiniteSums.isNaN_of_lt below
    rw [FiniteSums.isNaN_nan] at number
    cases number
  · exact scale
  · exact Magnitudes.not_mul_lt_zero scale (Magnitudes.not_sqrt_lt_zero _)

/-- An infinite length is within a bound exactly if the bound is infinite, too. -/
theorem norm_le_iff_of_infinite {v : List F} (infinite : IsInfinite (norm v)) {bound : F}
    (positive : 0 < bound) : norm v ≤ bound ↔ IsInfinite bound := by
  have above := Magnitudes.pos_of_infinite infinite (not_norm_lt_zero v)
  exact ⟨Magnitudes.infinite_of_le infinite above, fun unbounded =>
    Magnitudes.le_of_infinite unbounded positive infinite.2⟩

end ImplicitDiff
