import Mathlib
import ImplicitDiff.Proofs.SpecialValues

/-! # Zeros among values that are not finite

There are two zeros, which equal each other, and arithmetic on them gives zeros as long as all else
is finite. With what is not finite the product is no number. So a product with a zero tells whether
the other factor is finite, and a product or quotient that is finite tells it of its operands. For
machine floats this is proved from their bits.
-/

namespace ImplicitDiff

open Arith

variable {F : Type} [Arith F]

/-- A zero of either sign. -/
def IsZero (a : F) : Prop := (a == 0) = true

instance (a : F) : Decidable (IsZero a) := inferInstanceAs (Decidable ((a == 0) = true))

/-- What arithmetic does with zeros. -/
class AbsorbingZeros (F : Type) [Arith F] : Prop extends SpecialValues F where
  /-- A sum with what is no number is no number. -/
  isNaN_add {a b : F} : isNaN a = true ∨ isNaN b = true → isNaN (a + b) = true
  /-- What is no number has no opposite. -/
  isNaN_neg {a : F} : isNaN a = true → isNaN (-a) = true
  /-- The opposite of a finite number is finite. -/
  isFinite_neg {a : F} : isFinite a = true → isFinite (-a) = true
  /-- A finite product has finite factors. -/
  isFinite_of_mul {a b : F} : isFinite (a * b) = true → isFinite a = true ∧ isFinite b = true
  isZero_zero : IsZero (0 : F)
  isZero_add {a b : F} : IsZero a → IsZero b → IsZero (a + b)
  isZero_sub {a b : F} : IsZero a → IsZero b → IsZero (a - b)
  isZero_neg {a : F} : IsZero a → IsZero (-a)
  isZero_mul {a b : F} : IsZero a → isFinite b = true → IsZero (a * b)
  isZero_mul_right {a b : F} : isFinite a = true → IsZero b → IsZero (a * b)
  /-- A zero may be divided by what divides another number to a finite quotient. -/
  isZero_div {a b c : F} : IsZero a → isFinite (c / b) = true → IsZero (a / b)
  /-- A zero times what is not finite is no number. -/
  isNaN_zero_mul {a b : F} : IsZero a → isFinite b = false → isNaN (a * b) = true

section Machine

open Float.Model Float.Model.UnpackedFloat

variable {spec : Format} {a b c : UnpackedFloat} {s t : Sign}

theorem beq_zero_iff : a.beq (.zero s) = true ↔ ∃ t, a = .zero t := by
  rcases a with (_ | _) | _ | _ | ⟨_ | _, _, _, _⟩ <;>
    simp [UnpackedFloat.beq, UnpackedFloat.compare]

theorem beq_zero_of_pack (zero : ∃ t, a = .zero t) :
    (UnpackedFloat.unpack spec (UnpackedFloat.pack spec a)).beq (.zero s) = true := by
  obtain ⟨t, rfl⟩ := zero
  rw [UnpackedFloat.pack, unpack_packedZero]
  rfl

theorem isFinite_of_pack
    (finite : (UnpackedFloat.unpack spec (UnpackedFloat.pack spec a)).isFinite = true) :
    a.isFinite = true := by
  cases a with
  | notANumber =>
    rw [unpack_pack_notANumber] at finite
    cases finite
  | infinity s =>
    rw [unpack_pack_infinity] at finite
    cases finite
  | zero | finite => rfl

theorem isFinite_unpack_iff {b : BitVec spec.numBits} :
    (UnpackedFloat.unpack spec b).isFinite = true ↔ unpackExponent b ≠ -1#_ := by
  unfold UnpackedFloat.unpack
  dsimp only
  split_ifs with top <;> simp [UnpackedFloat.isFinite, top]

/-- The sign has no part in the exponent. -/
theorem unpackExponent_pack_neg :
    unpackExponent (UnpackedFloat.pack spec a.neg) =
      unpackExponent (UnpackedFloat.pack spec a) := by
  cases a with
  | notANumber => rfl
  | infinity s | zero s =>
    exact unpackExponent_packComponents.trans unpackExponent_packComponents.symm
  | finite s m e positive =>
    unfold UnpackedFloat.neg UnpackedFloat.pack
    dsimp only
    split_ifs <;> exact unpackExponent_packComponents.trans unpackExponent_packComponents.symm

theorem isFinite_pack_neg (wide : 2 ≤ spec.exponentBits) {b : BitVec spec.numBits}
    (valid : spec.Valid b) (finite : (UnpackedFloat.unpack spec b).isFinite = true) :
    (UnpackedFloat.unpack spec
      (UnpackedFloat.pack spec (UnpackedFloat.unpack spec b).neg)).isFinite = true := by
  rw [isFinite_unpack_iff] at finite ⊢
  rwa [unpackExponent_pack_neg, pack_unpack_of_valid valid wide]

theorem add_of_isNaN (missing : a.isNaN = true ∨ b.isNaN = true) :
    UnpackedFloat.add spec a b = .notANumber := by
  cases a <;> cases b <;> first | rfl | simp [UnpackedFloat.isNaN] at missing

theorem neg_of_isNaN (missing : a.isNaN = true) : a.neg = .notANumber := by
  cases a <;> first | rfl | cases missing

theorem isFinite_of_mul_pack (finite : (UnpackedFloat.unpack spec
    (UnpackedFloat.pack spec (UnpackedFloat.mul spec a b))).isFinite = true) :
    a.isFinite = true ∧ b.isFinite = true := by
  have product := isFinite_of_pack finite
  cases a <;> cases b <;> first | exact ⟨rfl, rfl⟩ | cases product

theorem add_of_zeros (first : a.beq (.zero s) = true) (second : b.beq (.zero s) = true) :
    ∃ t, UnpackedFloat.add spec a b = .zero t := by
  obtain ⟨t, rfl⟩ := beq_zero_iff.mp first
  obtain ⟨u, rfl⟩ := beq_zero_iff.mp second
  cases t <;> cases u <;> exact ⟨_, rfl⟩

theorem sub_of_zeros (first : a.beq (.zero s) = true) (second : b.beq (.zero s) = true) :
    ∃ t, UnpackedFloat.sub spec a b = .zero t := by
  obtain ⟨t, rfl⟩ := beq_zero_iff.mp first
  obtain ⟨u, rfl⟩ := beq_zero_iff.mp second
  cases t <;> cases u <;> exact ⟨_, rfl⟩

theorem neg_of_zero (zero : a.beq (.zero s) = true) : ∃ t, a.neg = .zero t := by
  obtain ⟨t, rfl⟩ := beq_zero_iff.mp zero
  exact ⟨_, rfl⟩

theorem mul_of_zero (zero : a.beq (.zero s) = true) (finite : b.isFinite = true) :
    ∃ t, UnpackedFloat.mul spec a b = .zero t := by
  obtain ⟨t, rfl⟩ := beq_zero_iff.mp zero
  cases b <;> first | exact ⟨_, rfl⟩ | cases finite

theorem mul_of_zero_right (finite : a.isFinite = true) (zero : b.beq (.zero s) = true) :
    ∃ t, UnpackedFloat.mul spec a b = .zero t := by
  obtain ⟨t, rfl⟩ := beq_zero_iff.mp zero
  cases a <;> first | exact ⟨_, rfl⟩ | cases finite

theorem div_of_zero (zero : a.beq (.zero s) = true) (finite : (UnpackedFloat.unpack spec
    (UnpackedFloat.pack spec (UnpackedFloat.div spec c b))).isFinite = true) :
    ∃ t, UnpackedFloat.div spec a b = .zero t := by
  obtain ⟨t, rfl⟩ := beq_zero_iff.mp zero
  have quotient := isFinite_of_pack finite
  cases b with
  | infinity | finite => exact ⟨_, rfl⟩
  | zero | notANumber => cases c <;> cases quotient

theorem zero_mul_of_not_finite (zero : a.beq (.zero s) = true) (infinite : b.isFinite = false) :
    UnpackedFloat.mul spec a b = .notANumber := by
  obtain ⟨t, rfl⟩ := beq_zero_iff.mp zero
  cases b <;> first | rfl | cases infinite

instance : AbsorbingZeros Float where
  isNaN_add missing := isNaN_unpack_pack (add_of_isNaN missing)
  isNaN_neg missing := isNaN_unpack_pack (neg_of_isNaN missing)
  isFinite_neg {a} finite := isFinite_pack_neg (by decide) a.toModel.valid finite
  isFinite_of_mul finite := isFinite_of_mul_pack finite
  isZero_zero := by decide +kernel
  isZero_add first second := beq_zero_of_pack (add_of_zeros first second)
  isZero_sub first second := beq_zero_of_pack (sub_of_zeros first second)
  isZero_neg zero := beq_zero_of_pack (neg_of_zero zero)
  isZero_mul zero finite := beq_zero_of_pack (mul_of_zero zero finite)
  isZero_mul_right finite zero := beq_zero_of_pack (mul_of_zero_right finite zero)
  isZero_div zero finite := beq_zero_of_pack (div_of_zero zero finite)
  isNaN_zero_mul zero infinite := isNaN_unpack_pack (zero_mul_of_not_finite zero infinite)

instance : AbsorbingZeros Float32 where
  isNaN_add missing := isNaN_unpack_pack (add_of_isNaN missing)
  isNaN_neg missing := isNaN_unpack_pack (neg_of_isNaN missing)
  isFinite_neg {a} finite := isFinite_pack_neg (by decide) a.toModel.valid finite
  isFinite_of_mul finite := isFinite_of_mul_pack finite
  isZero_zero := by decide +kernel
  isZero_add first second := beq_zero_of_pack (add_of_zeros first second)
  isZero_sub first second := beq_zero_of_pack (sub_of_zeros first second)
  isZero_neg zero := beq_zero_of_pack (neg_of_zero zero)
  isZero_mul zero finite := beq_zero_of_pack (mul_of_zero zero finite)
  isZero_mul_right finite zero := beq_zero_of_pack (mul_of_zero_right finite zero)
  isZero_div zero finite := beq_zero_of_pack (div_of_zero zero finite)
  isNaN_zero_mul zero infinite := isNaN_unpack_pack (zero_mul_of_not_finite zero infinite)

end Machine

end ImplicitDiff
