import Mathlib
import ImplicitDiff.Proofs.Exact

/-! # Numbers whose comparisons can be trusted

A search keeps a step only if comparisons of computed numbers say so. What it needs of them is
little enough to hold of machine floats, with their infinities and the value that is no number, and
of exact numbers. Of machine floats it is proved from their bits: numbers have ranks that are in
order, and the sign of a quotient survives rounding.
-/

namespace ImplicitDiff

open Arith

/-- What a search relies on when it compares numbers. -/
class SoundComparisons (F : Type) [Arith F] : Prop where
  /-- What is below something is below all that is above it. -/
  lt_trans {a b c : F} : a < b → b < c → a < c
  /-- The strict order is part of the weak one. -/
  le_of_lt {a b : F} : a < b → a ≤ b
  /-- A residual that did not go down passes for no fraction of a reduction that was promised. -/
  not_le_neg_one_div {p : F} : 0 < p → ¬(0.0001 : F) ≤ -1 / p
  /-- Nothing is no fraction of a reduction either. -/
  not_le_zero : ¬(0.0001 : F) ≤ 0
  /-- What is no number is not zero. -/
  nan_beq_zero : ((nan : F) == 0) = false
  /-- What is not finite is not zero. -/
  beq_zero_of_not_finite {a : F} : isFinite a = false → (a == 0) = false

section Machine

open Float.Model Float.Model.UnpackedFloat

/-- Whether the sign is minus, also of a zero. What is no number has no sign. -/
def IsNegative : UnpackedFloat → Prop
  | .infinity s | .zero s | .finite s _ _ _ => s = .negative
  | .notANumber => False

private theorem unpackSign_pack {spec : Format} {a : UnpackedFloat} (negative : IsNegative a) :
    unpackSign (UnpackedFloat.pack spec a) = 1#1 := by
  cases a with
  | notANumber => exact negative.elim
  | infinity s =>
    cases negative
    exact unpackSign_packComponents ..
  | zero s =>
    cases negative
    exact unpackSign_packComponents ..
  | finite s m e _ =>
    cases negative
    unfold UnpackedFloat.pack
    dsimp only
    split_ifs <;> exact unpackSign_packComponents ..

/-- The only pattern that stands for no number has the sign plus. -/
theorem isNegative_unpack {spec : Format} {b : BitVec spec.numBits} (valid : spec.Valid b)
    (sign : unpackSign b = 1#1) : IsNegative (UnpackedFloat.unpack spec b) := by
  unfold UnpackedFloat.unpack
  rw [sign]
  dsimp only
  split_ifs with top whole
  · rfl
  · rw [valid.eq_packedNaN top whole, packedNaN, unpackSign_packComponents] at sign
    cases sign
  · rfl
  · rfl
  · rfl

/-- A negative number by a positive one has the sign minus, even where it underflows to zero. -/
theorem isNegative_div {spec : Format} {m : Nat} {e : Int} {nonzero : 0 < m} {p : UnpackedFloat}
    (above : (UnpackedFloat.zero .positive).lt p = true) :
    IsNegative (UnpackedFloat.div spec (.finite .negative m e nonzero) p) := by
  rcases p with (_ | _) | _ | _ | ⟨_ | _, m', e', _⟩
  case finite.positive =>
    unfold UnpackedFloat.div
    dsimp only
    unfold roundWithAccuracy
    dsimp only
    split_ifs <;> rfl
  case infinity.positive => rfl
  all_goals cases above

private theorem le_of_isNegative {m : Nat} {e : Int} {nonzero : 0 < m} {a : UnpackedFloat}
    (negative : IsNegative a) :
    (UnpackedFloat.finite .positive m e nonzero).le a = false := by
  cases a with
  | notANumber => exact negative.elim
  | infinity s | zero s | finite s _ _ _ =>
    cases negative
    rfl

/-- No positive number is at most the quotient of a negative and a positive one. -/
theorem le_pack_div {spec : Format} {m n : Nat} {e f : Int} {nonzero : 0 < m} {nonzero' : 0 < n}
    {p : UnpackedFloat} (above : (UnpackedFloat.zero .positive).lt p = true) :
    (UnpackedFloat.finite .positive m e nonzero).le (UnpackedFloat.unpack spec
      (UnpackedFloat.pack spec (UnpackedFloat.div spec (.finite .negative n f nonzero') p))) =
        false :=
  le_of_isNegative (isNegative_unpack valid_pack (unpackSign_pack (isNegative_div above)))

/-- The place of a number among all: its kind, from one infinity to the other, and within a kind
exponent and mantissa, which count downwards for negative numbers. -/
def rank : UnpackedFloat → Int × Int × Int
  | .infinity .negative => (-2, 0, 0)
  | .finite .negative m e _ => (-1, -e, -m)
  | .zero _ => (0, 0, 0)
  | .finite .positive m e _ => (1, e, m)
  | .infinity .positive => (2, 0, 0)
  | .notANumber => (0, 0, 0)

/-- The order of ranks. -/
def RankBelow (r s : Int × Int × Int) : Prop :=
  r.1 < s.1 ∨ r.1 = s.1 ∧ (r.2.1 < s.2.1 ∨ r.2.1 = s.2.1 ∧ r.2.2 < s.2.2)

theorem lt_iff_rankBelow {a b : UnpackedFloat} : a.lt b = true ↔
    a.isNaN = false ∧ b.isNaN = false ∧ RankBelow (rank a) (rank b) := by
  unfold UnpackedFloat.lt
  rcases a with (_ | _) | _ | _ | ⟨_ | _, m, e, _⟩ <;>
    rcases b with (_ | _) | _ | _ | ⟨_ | _, m', e', _⟩ <;>
    simp [UnpackedFloat.compare, UnpackedFloat.isNaN, rank, RankBelow, compare]
  case finite.negative.finite.negative =>
    change (compare e e').then (compare m m') = .gt ↔ _
    rw [Ordering.then_eq_gt, Int.compare_eq_gt, Int.compare_eq_eq, Nat.compare_eq_gt]
  case finite.positive.finite.positive =>
    change (compare e e').then (compare m m') = .lt ↔ _
    rw [Ordering.then_eq_lt, Int.compare_eq_lt, Int.compare_eq_eq, Nat.compare_eq_lt]

theorem unpacked_lt_trans {a b c : UnpackedFloat} (first : a.lt b = true)
    (second : b.lt c = true) : a.lt c = true := by
  obtain ⟨number, -, below⟩ := lt_iff_rankBelow.mp first
  obtain ⟨-, other, under⟩ := lt_iff_rankBelow.mp second
  refine lt_iff_rankBelow.mpr ⟨number, other, ?_⟩
  unfold RankBelow at *
  omega

theorem unpacked_le_of_lt {a b : UnpackedFloat} (below : a.lt b = true) : a.le b = true := by
  have compared : a.compare b = some .lt := beq_iff_eq.mp below
  rw [UnpackedFloat.le, compared]
  rfl

theorem beq_zero_of_isFinite {a : UnpackedFloat} {s : Sign} (infinite : a.isFinite = false) :
    a.beq (.zero s) = false := by
  rcases a with (_ | _) | _ | _ | _
  case zero | finite => cases infinite
  all_goals rfl

theorem Float.lt_iff_unpack {a b : Float} :
    a < b ↔ a.toModel.unpack.lt b.toModel.unpack = true := decide_eq_true_iff

theorem Float.le_iff_unpack {a b : Float} :
    a ≤ b ↔ a.toModel.unpack.le b.toModel.unpack = true := decide_eq_true_iff

theorem Float32.lt_iff_unpack {a b : Float32} :
    a < b ↔ a.toModel.unpack.lt b.toModel.unpack = true := decide_eq_true_iff

theorem Float32.le_iff_unpack {a b : Float32} :
    a ≤ b ↔ a.toModel.unpack.le b.toModel.unpack = true := decide_eq_true_iff

instance : SoundComparisons Float where
  lt_trans first second := Float.lt_iff_unpack.mpr
    (unpacked_lt_trans (Float.lt_iff_unpack.mp first) (Float.lt_iff_unpack.mp second))
  le_of_lt below := Float.le_iff_unpack.mpr (unpacked_le_of_lt (Float.lt_iff_unpack.mp below))
  not_le_neg_one_div above least :=
    Bool.eq_false_iff.mp (le_pack_div (Float.lt_iff_unpack.mp above)) (Float.le_iff_unpack.mp least)
  not_le_zero := by decide +kernel
  nan_beq_zero := by decide +kernel
  beq_zero_of_not_finite infinite := beq_zero_of_isFinite infinite

instance : SoundComparisons Float32 where
  lt_trans first second := Float32.lt_iff_unpack.mpr
    (unpacked_lt_trans (Float32.lt_iff_unpack.mp first) (Float32.lt_iff_unpack.mp second))
  le_of_lt below := Float32.le_iff_unpack.mpr (unpacked_le_of_lt (Float32.lt_iff_unpack.mp below))
  not_le_neg_one_div above least := Bool.eq_false_iff.mp
    (le_pack_div (Float32.lt_iff_unpack.mp above)) (Float32.le_iff_unpack.mp least)
  not_le_zero := by decide +kernel
  nan_beq_zero := by decide +kernel
  beq_zero_of_not_finite infinite := beq_zero_of_isFinite infinite

end Machine

/-- Exact numbers can be compared, if the mark of a missing number is not zero and zero is finite.
-/
theorem ExactOrderedField.soundComparisons {F : Type} [ExactOrderedField F]
    (small : (0 : F) < 0.0001) (mark : (nan : F) ≠ 0) (finite : isFinite (0 : F) = true) :
    SoundComparisons F where
  lt_trans first second := first.trans second
  le_of_lt below := below.le
  not_le_neg_one_div {p} above := by
    have below : -1 / p < 0 := div_neg_of_neg_of_pos (by simp) above
    exact not_le.mpr (below.trans small)
  not_le_zero := not_le.mpr small
  nan_beq_zero := beq_eq_false_iff_ne.mpr mark
  beq_zero_of_not_finite {a} infinite := by
    rw [beq_eq_false_iff_ne]
    rintro rfl
    rw [finite] at infinite
    cases infinite

instance : SoundComparisons ℚ :=
  ExactOrderedField.soundComparisons (by decide +kernel) (by decide +kernel) rfl

end ImplicitDiff
