import Mathlib
import ImplicitDiff.Dense.Basic
import ImplicitDiff.Proofs.Zeros
import ImplicitDiff.Proofs.Dense.NonFinite

/-! # What a finite result tells of its operands

A sum of finite numbers may be too large to be finite, but a sum that is finite has finite operands,
and so has every part of a longer sum of products. A length that lies below anything belongs to a
vector of finite entries, because an entry that is no number makes it no number and an infinite one
makes it infinite. For machine floats all this rests on is proved from their bits.
-/

namespace ImplicitDiff

open Arith

/-- What is known of the operands of a finite sum, and of values that compare with others. -/
class FiniteSums (F : Type) [Arith F] : Prop extends AbsorbingZeros F where
  /-- A finite sum has finite operands. -/
  isFinite_of_add {a b : F} : isFinite (a + b) = true → isFinite a = true ∧ isFinite b = true
  /-- A finite number may be added to a number, even where the sum is too large to be finite. -/
  isNaN_add_of_isFinite {a b : F} : isNaN a = false → isFinite b = true → isNaN (a + b) = false
  /-- What is finite is a number. -/
  isNaN_of_isFinite {a : F} : isFinite a = true → isNaN a = false
  /-- What is no number has no root. -/
  isNaN_sqrt {a : F} : isNaN a = true → isNaN (sqrt a) = true
  /-- The mark of what is no number is none. -/
  isNaN_nan : isNaN (nan : F) = true
  /-- What is no number is below nothing. -/
  isNaN_of_lt {a b : F} : a < b → isNaN a = false
  /-- What is above all numbers is below nothing. -/
  not_infinite_lt {a b : F} : IsInfinite a → 0 < a → ¬a < b
  /-- Nothing is below itself. -/
  lt_irrefl (a : F) : ¬a < a

section Machine

open Float.Model Float.Model.UnpackedFloat

variable {spec : Format} {a b : UnpackedFloat}

theorem isNaN_of_isFinite_unpacked (finite : a.isFinite = true) : a.isNaN = false := by
  cases a <;> first | rfl | cases finite

/-- Patterns below the largest exponent stand for numbers. -/
theorem isNaN_unpack_packComponents {s : Sign} {exponent : Nat}
    {mantissa : BitVec spec.mantissaBitsWithoutImplicit}
    (below : exponent + 1 < 2 ^ spec.exponentBits) :
    (UnpackedFloat.unpack spec
      (packComponents spec s (BitVec.ofNat _ exponent) mantissa)).isNaN = false := by
  refine isNaN_of_isFinite_unpacked (isFinite_unpack_iff.mpr ?_)
  rw [unpackExponent_packComponents]
  intro top
  have same := congrArg BitVec.toNat top
  rw [BitVec.neg_one_eq_allOnes, BitVec.toNat_allOnes, BitVec.toNat_ofNat,
    Nat.mod_eq_of_lt (by omega)] at same
  omega

/-- Packing may make a finite number infinite, but it stays a number. -/
theorem isNaN_pack (number : a.isNaN = false) :
    (UnpackedFloat.unpack spec (UnpackedFloat.pack spec a)).isNaN = false := by
  have room : 2 ≤ 2 ^ spec.exponentBits := Nat.pow_le_pow_right Nat.two_pos spec.he
  have infinite (s : Sign) :
      (UnpackedFloat.unpack spec (UnpackedFloat.pack spec (.infinity s))).isNaN = false := by
    rw [unpack_pack_infinity]
    rfl
  cases a with
  | notANumber => cases number
  | infinity s => exact infinite s
  | zero s => exact isNaN_unpack_packComponents room
  | finite s m e _ =>
    rw [UnpackedFloat.pack]
    split_ifs with huge normal
    · exact infinite s
    · exact isNaN_unpack_packComponents (Nat.lt_of_not_le huge)
    · exact isNaN_unpack_packComponents room

theorem isFinite_of_add_pack (finite : (UnpackedFloat.unpack spec
    (UnpackedFloat.pack spec (UnpackedFloat.add spec a b))).isFinite = true) :
    a.isFinite = true ∧ b.isFinite = true := by
  have sum := isFinite_of_pack finite
  rcases a with (_ | _) | _ | _ | _ <;> rcases b with (_ | _) | _ | _ | _ <;>
    first | exact ⟨rfl, rfl⟩ | cases sum

/-- Rounding gives a number. -/
theorem isNaN_normalize (mantissa : Int) (exponent : Int) (s : Sign) :
    (UnpackedFloat.normalize spec mantissa exponent s).isNaN = false := by
  unfold UnpackedFloat.normalize UnpackedFloat.round roundWithAccuracy
  split
  · dsimp only
    split_ifs <;> rfl
  · rfl
  · dsimp only
    split_ifs <;> rfl

theorem isNaN_add_of_number (number : a.isNaN = false) (finite : b.isFinite = true) :
    (UnpackedFloat.add spec a b).isNaN = false := by
  cases a with
  | notANumber => cases number
  | infinity s => cases b <;> first | rfl | cases finite
  | zero s =>
    cases b with
    | zero t => cases s <;> cases t <;> rfl
    | finite => rfl
    | infinity | notANumber => cases finite
  | finite =>
    cases b with
    | zero => rfl
    | finite => exact isNaN_normalize ..
    | infinity | notANumber => cases finite

theorem sqrt_of_isNaN (missing : a.isNaN = true) : UnpackedFloat.sqrt spec a = .notANumber := by
  cases a <;> first | rfl | cases missing

theorem not_infinity_lt : (UnpackedFloat.infinity .positive).lt b = false := by
  rcases b with (_ | _) | _ | _ | ⟨_ | _, _, _, _⟩ <;> rfl

theorem unpacked_lt_irrefl (a : UnpackedFloat) : ¬a.lt a = true := by
  rw [lt_iff_rankBelow, RankBelow]
  omega

instance : FiniteSums Float where
  isFinite_of_add finite := isFinite_of_add_pack finite
  isNaN_add_of_isFinite number finite := isNaN_pack (isNaN_add_of_number number finite)
  isNaN_of_isFinite finite := isNaN_of_isFinite_unpacked finite
  isNaN_sqrt missing := isNaN_unpack_pack (sqrt_of_isNaN missing)
  isNaN_nan := by decide +kernel
  isNaN_of_lt below := (lt_iff_rankBelow.mp (Float.lt_iff_unpack.mp below)).1
  not_infinite_lt infinite positive below := by
    have top := Float.infinite_pos_iff.mp ⟨infinite, positive⟩
    rw [Float.lt_iff_unpack, top, not_infinity_lt] at below
    cases below
  lt_irrefl a below := unpacked_lt_irrefl _ (Float.lt_iff_unpack.mp below)

instance : FiniteSums Float32 where
  isFinite_of_add finite := isFinite_of_add_pack finite
  isNaN_add_of_isFinite number finite := isNaN_pack (isNaN_add_of_number number finite)
  isNaN_of_isFinite finite := isNaN_of_isFinite_unpacked finite
  isNaN_sqrt missing := isNaN_unpack_pack (sqrt_of_isNaN missing)
  isNaN_nan := by decide +kernel
  isNaN_of_lt below := (lt_iff_rankBelow.mp (Float32.lt_iff_unpack.mp below)).1
  not_infinite_lt infinite positive below := by
    have top := Float32.infinite_pos_iff.mp ⟨infinite, positive⟩
    rw [Float32.lt_iff_unpack, top, not_infinity_lt] at below
    cases below
  lt_irrefl a below := unpacked_lt_irrefl _ (Float32.lt_iff_unpack.mp below)

end Machine

variable {F : Type} [Arith F] [FiniteSums F]

theorem isFinite_iff {a : F} : isFinite a = true ↔ isNaN a = false ∧ ¬IsInfinite a := by
  constructor
  · exact fun finite => ⟨FiniteSums.isNaN_of_isFinite finite, fun infinite => by
      rw [infinite.1] at finite
      cases finite⟩
  · rintro ⟨number, bounded⟩
    by_contra infinite
    exact bounded ⟨Bool.eq_false_iff.mpr infinite, number⟩

/-- A finite sum of products has finite factors. -/
theorem isFinite_of_dot {u v : List F} (finite : isFinite (dot u v) = true) :
    ∀ pair ∈ u.zip v, isFinite pair.1 = true ∧ isFinite pair.2 = true := by
  have parts (pairs : List (F × F)) (start : F)
      (finite : isFinite (pairs.foldl (fun sum pair => sum + pair.1 * pair.2) start) = true) :
      isFinite start = true ∧ ∀ pair ∈ pairs, isFinite pair.1 = true ∧ isFinite pair.2 = true := by
    induction pairs generalizing start with
    | nil => exact ⟨finite, List.forall_mem_nil _⟩
    | cons pair pairs ih =>
      obtain ⟨sum, rest⟩ := ih _ finite
      obtain ⟨before, product⟩ := FiniteSums.isFinite_of_add sum
      exact ⟨before, List.forall_mem_cons.mpr ⟨AbsorbingZeros.isFinite_of_mul product, rest⟩⟩
  exact (parts _ _ finite).2

/-- An entry that is no number makes the length no number. -/
theorem isNaN_norm {v : List F} {c : F} (member : c ∈ v) (missing : isNaN c = true) :
    isNaN (norm v) = true := by
  unfold norm
  dsimp only
  split_ifs with flat some
  · exact FiniteSums.isNaN_nan
  · exact absurd (List.any_eq_true.mpr ⟨c, member, missing⟩) some
  · refine SpecialValues.isNaN_mul (.inr (FiniteSums.isNaN_sqrt ?_))
    obtain ⟨before, after, rfl⟩ := List.append_of_mem member
    have stays (v : List F) (start scale : F) (missing : isNaN start = true) :
        isNaN (v.foldl (fun sum x => let r := x / scale; sum + r * r) start) = true := by
      induction v generalizing start with
      | nil => exact missing
      | cons x v ih => exact ih _ (AbsorbingZeros.isNaN_add (.inl missing))
    rw [List.foldl_append, List.foldl_cons]
    exact stays _ _ _ (AbsorbingZeros.isNaN_add (.inr
      (SpecialValues.isNaN_mul (.inl (SpecialValues.isNaN_div (.inl missing))))))

/-- A vector with a length below anything has finite entries. -/
theorem isFinite_of_norm_lt {v : List F} {bound : F} (below : norm v < bound) :
    ∀ c ∈ v, isFinite c = true := by
  intro c member
  refine isFinite_iff.mpr ⟨?_, fun infinite => ?_⟩
  · refine Bool.eq_false_iff.mpr fun missing => ?_
    have number := FiniteSums.isNaN_of_lt below
    rw [isNaN_norm member missing] at number
    cases number
  · obtain ⟨top, positive⟩ := infinite_largest member infinite
    have length : norm v = if v.any isNaN then nan else largest v := by
      rw [norm, top.1, Bool.not_false, Bool.or_true, if_pos rfl]
    rw [length] at below
    split_ifs at below
    · have number := FiniteSums.isNaN_of_lt below
      rw [FiniteSums.isNaN_nan] at number
      cases number
    · exact FiniteSums.not_infinite_lt top positive below

end ImplicitDiff
