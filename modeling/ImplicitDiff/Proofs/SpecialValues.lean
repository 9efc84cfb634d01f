import Mathlib
import ImplicitDiff.Proofs.Comparisons

/-! # Infinities and what is no number

Machine arithmetic carries two kinds of values that are not finite, and treats them differently. An
infinite value is the largest magnitude that there is. A value that is no number compares with
nothing, so a maximum passes over it, but differences, products and quotients keep it. For machine
floats this is proved from their bits.
-/

namespace ImplicitDiff

open Arith

variable {F : Type} [Arith F]

/-- A value that is not finite but compares with others. -/
def IsInfinite (a : F) : Prop := isFinite a = false ∧ isNaN a = false

/-- What arithmetic does with values that are not finite. -/
class SpecialValues (F : Type) [Arith F] : Prop where
  /-- A difference with what is no number is no number. -/
  isNaN_sub {a b : F} : isNaN a = true ∨ isNaN b = true → isNaN (a - b) = true
  /-- A product with what is no number is no number. -/
  isNaN_mul {a b : F} : isNaN a = true ∨ isNaN b = true → isNaN (a * b) = true
  /-- A quotient with what is no number is no number. -/
  isNaN_div {a b : F} : isNaN a = true ∨ isNaN b = true → isNaN (a / b) = true
  /-- The magnitude of an infinite value is infinite and positive. -/
  infinite_abs {a : F} : IsInfinite a → IsInfinite (Arith.abs a) ∧ 0 < Arith.abs a
  /-- Nothing is larger, and what is no number does not count. -/
  infinite_max {a b : F} : IsInfinite a ∧ 0 < a ∨ IsInfinite b ∧ 0 < b →
    IsInfinite (max a b) ∧ 0 < max a b

section Machine

open Float.Model Float.Model.UnpackedFloat

/-- Patterns with the largest exponent stand for no finite number. -/
theorem unpack_of_top {spec : Format} {b : BitVec spec.numBits} (top : unpackExponent b = -1#_) :
    UnpackedFloat.unpack spec b = if unpackMantissa b = 0#_
      then .infinity (Sign.ofBitVec (unpackSign b)) else .notANumber := if_pos top

theorem unpack_pack_notANumber (spec : Format) :
    UnpackedFloat.unpack spec (UnpackedFloat.pack spec .notANumber) = .notANumber := by
  have mark : 1#_ <<< (spec.mantissaBitsWithoutImplicit - 1) ≠
      (0#_ : BitVec spec.mantissaBitsWithoutImplicit) := by
    have top : spec.mantissaBitsWithoutImplicit - 1 < spec.mantissaBitsWithoutImplicit :=
      Nat.sub_lt spec.hm Nat.one_pos
    intro zero
    have bit := congrArg (·.getLsbD (spec.mantissaBitsWithoutImplicit - 1)) zero
    simp [top] at bit
  rw [UnpackedFloat.pack, packedNaN, unpack_of_top unpackExponent_packComponents,
    unpackMantissa_packComponents, if_neg mark]

theorem unpack_pack_infinity (spec : Format) (s : Sign) :
    UnpackedFloat.unpack spec (UnpackedFloat.pack spec (.infinity s)) = .infinity s := by
  rw [UnpackedFloat.pack, packedInfinity, unpack_of_top unpackExponent_packComponents,
    unpackMantissa_packComponents, if_pos BitVec.ofNat_eq_ofNat, unpackSign_packComponents]
  cases s <;> rfl

variable {a b : UnpackedFloat}

theorem sub_of_isNaN (spec : Format) (missing : a.isNaN = true ∨ b.isNaN = true) :
    UnpackedFloat.sub spec a b = .notANumber := by
  cases a <;> cases b <;> first | rfl | simp [UnpackedFloat.isNaN] at missing

theorem mul_of_isNaN (spec : Format) (missing : a.isNaN = true ∨ b.isNaN = true) :
    UnpackedFloat.mul spec a b = .notANumber := by
  cases a <;> cases b <;> first | rfl | simp [UnpackedFloat.isNaN] at missing

theorem div_of_isNaN (spec : Format) (missing : a.isNaN = true ∨ b.isNaN = true) :
    UnpackedFloat.div spec a b = .notANumber := by
  cases a <;> cases b <;> first | rfl | simp [UnpackedFloat.isNaN] at missing

/-- The value above all others. -/
theorem eq_infinity_iff : a = .infinity .positive ↔
    (a.isFinite = false ∧ a.isNaN = false) ∧ (UnpackedFloat.zero .positive).lt a = true := by
  rcases a with (_ | _) | _ | _ | ⟨_ | _, _, _, _⟩ <;>
    simp [UnpackedFloat.isFinite, UnpackedFloat.isNaN, UnpackedFloat.lt, UnpackedFloat.compare]

theorem isNaN_unpack_pack {spec : Format} (missing : a = .notANumber) :
    (UnpackedFloat.unpack spec (UnpackedFloat.pack spec a)).isNaN = true := by
  rw [missing, unpack_pack_notANumber]
  rfl

/-- Where one of two values is above all others, a maximum that passes over what is no number gives
it, whichever comes first. -/
theorem larger_eq_infinity (either : a = .infinity .positive ∨ b = .infinity .positive) :
    (a.isNaN = true ∨ a.lt b = true → b = .infinity .positive) ∧
      (a.isNaN = false → a.lt b = false → a = .infinity .positive) := by
  rcases either with rfl | rfl
  · refine ⟨fun passed => ?_, fun _ _ => rfl⟩
    rcases b with (_ | _) | _ | _ | ⟨_ | _, _, _, _⟩
    case infinity.positive => rfl
    all_goals rcases passed with missing | below
    all_goals first | cases missing | cases below
  · refine ⟨fun _ => rfl, fun number kept => ?_⟩
    rcases a with (_ | _) | _ | _ | ⟨_ | _, _, _, _⟩
    case infinity.positive => rfl
    case notANumber => cases number
    all_goals cases kept

theorem Float.infinite_pos_iff {a : Float} :
    IsInfinite a ∧ 0 < a ↔ a.toModel.unpack = .infinity .positive := by
  rw [eq_infinity_iff, Float.lt_iff_unpack]
  exact Iff.rfl

theorem Float32.infinite_pos_iff {a : Float32} :
    IsInfinite a ∧ 0 < a ↔ a.toModel.unpack = .infinity .positive := by
  rw [eq_infinity_iff, Float32.lt_iff_unpack]
  exact Iff.rfl

theorem abs_eq_infinity (infinite : a.isFinite = false ∧ a.isNaN = false) :
    a.abs = .infinity .positive := by
  cases a with
  | infinity => rfl
  | notANumber => cases infinite.2
  | zero | finite => cases infinite.1

instance : SpecialValues Float where
  isNaN_sub missing := isNaN_unpack_pack (sub_of_isNaN _ missing)
  isNaN_mul missing := isNaN_unpack_pack (mul_of_isNaN _ missing)
  isNaN_div missing := isNaN_unpack_pack (div_of_isNaN _ missing)
  infinite_abs {a} infinite := by
    rw [Float.infinite_pos_iff]
    change UnpackedFloat.unpack _ (UnpackedFloat.pack _ a.toModel.unpack.abs) = _
    rw [abs_eq_infinity infinite, unpack_pack_infinity]
  infinite_max {a b} either := by
    rw [Float.infinite_pos_iff, Float.infinite_pos_iff] at either
    obtain ⟨passed, kept⟩ := larger_eq_infinity either
    rw [Float.infinite_pos_iff]
    change (if a.isNaN then b else if a < b then b else a).toModel.unpack = _
    split_ifs with missing below
    · exact passed (.inl missing)
    · exact passed (.inr (Float.lt_iff_unpack.mp below))
    · exact kept (Bool.eq_false_iff.mpr missing)
        (Bool.eq_false_iff.mpr fun less => below (Float.lt_iff_unpack.mpr less))

instance : SpecialValues Float32 where
  isNaN_sub missing := isNaN_unpack_pack (sub_of_isNaN _ missing)
  isNaN_mul missing := isNaN_unpack_pack (mul_of_isNaN _ missing)
  isNaN_div missing := isNaN_unpack_pack (div_of_isNaN _ missing)
  infinite_abs {a} infinite := by
    rw [Float32.infinite_pos_iff]
    change UnpackedFloat.unpack _ (UnpackedFloat.pack _ a.toModel.unpack.abs) = _
    rw [abs_eq_infinity infinite, unpack_pack_infinity]
  infinite_max {a b} either := by
    rw [Float32.infinite_pos_iff, Float32.infinite_pos_iff] at either
    obtain ⟨passed, kept⟩ := larger_eq_infinity either
    rw [Float32.infinite_pos_iff]
    change (if a.isNaN then b else if a < b then b else a).toModel.unpack = _
    split_ifs with missing below
    · exact passed (.inl missing)
    · exact passed (.inr (Float32.lt_iff_unpack.mp below))
    · exact kept (Bool.eq_false_iff.mpr missing)
        (Bool.eq_false_iff.mpr fun less => below (Float32.lt_iff_unpack.mpr less))

end Machine

end ImplicitDiff
