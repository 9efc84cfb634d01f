import Mathlib.Tactic
import ImplicitDiff.Proofs.Dense.Vector

/-! # Where a segment leaves a ball

The square of the distance at a place of a segment, less that of the radius, is a quadratic in the
place. If the segment starts inside and ends outside, the quadratic is negative at zero and positive
at one, so it has one root in between. The form of the solution that is chosen gives this root, and
its divisor is positive.
-/

namespace ImplicitDiff

open Arith
open scoped Matrix

variable {F : Type}

/-- The coefficients of a quadratic. -/
structure Quadratic (F : Type) where
  /-- The coefficient of the square. -/
  square : F
  /-- The coefficient of the place itself. -/
  linear : F
  /-- The value at zero. -/
  constant : F

namespace Quadratic

section Solution

variable [Arith F]

/-- The root of the discriminant, which counts as zero if it is negative. -/
def root (q : Quadratic F) : F :=
  sqrt (max (q.linear * q.linear - 4.0 * q.square * q.constant) 0)

/-- The larger solution, by the form that adds numbers of one sign. -/
def place (q : Quadratic F) : F :=
  if 0 ≤ q.linear then -(q.constant + q.constant) / (q.linear + q.root)
  else (q.root - q.linear) / (q.square + q.square)

end Solution

variable [ExactOrderedField F] {q : Quadratic F}

/-- A quadratic that opens upwards, is negative at zero and positive at one. -/
structure ChangesSign (q : Quadratic F) : Prop where
  opens : 0 < q.square
  below : q.constant < 0
  above : 0 < q.square + q.linear + q.constant

namespace ChangesSign

variable [ExactRoots F]

theorem root_mul_self (changes : q.ChangesSign) :
    q.root * q.root = q.linear * q.linear - 4 * q.square * q.constant := by
  have four : (4.0 : F) = 4 := by
    rw [ExactRoots.decimal]
    norm_num
  have discriminant : 0 ≤ q.linear * q.linear - 4 * q.square * q.constant := by
    linarith [mul_self_nonneg q.linear, mul_pos changes.opens (neg_pos.mpr changes.below)]
  rw [root, four, max_eq_left discriminant, ExactRoots.sqrt_mul_self discriminant]

theorem root_pos (changes : q.ChangesSign) : 0 < q.root := by
  have nonneg : 0 ≤ q.root := ExactRoots.sqrt_nonneg (le_max_right ..)
  refine nonneg.lt_of_ne' fun zero => ?_
  have square := changes.root_mul_self
  rw [zero, zero_mul] at square
  linarith [mul_self_nonneg q.linear, mul_pos changes.opens (neg_pos.mpr changes.below)]

/-- The divisor of either form, where it is chosen. -/
theorem divisor_pos (changes : q.ChangesSign) :
    (0 ≤ q.linear → 0 < q.linear + q.root) ∧ 0 < q.square + q.square :=
  ⟨fun sign => add_pos_of_nonneg_of_pos sign changes.root_pos, add_pos changes.opens changes.opens⟩

/-- The place lies between zero and one, and solves the quadratic equation. -/
theorem place_spec (changes : q.ChangesSign) : 0 < q.place ∧ q.place < 1 ∧
    q.square * (q.place * q.place) + q.linear * q.place + q.constant = 0 := by
  have square := changes.root_mul_self
  have positive := changes.root_pos
  have below := changes.below
  have opens := changes.opens
  have above := changes.above
  obtain ⟨after, equation⟩ : 0 < q.place ∧
      q.square * (q.place * q.place) + q.linear * q.place + q.constant = 0 := by
    rw [place]
    split_ifs with sign
    · have divisor := changes.divisor_pos.1 sign
      refine ⟨div_pos (by linarith) divisor, ?_⟩
      field_simp
      linear_combination q.constant * square
    · refine ⟨div_pos (sub_pos.mpr ((not_le.mp sign).trans positive)) changes.divisor_pos.2, ?_⟩
      field_simp
      linear_combination square
  refine ⟨after, ?_, equation⟩
  by_contra beyond
  have further : 0 ≤ (q.place - 1) * (q.square * q.place - q.constant) :=
    mul_nonneg (sub_nonneg.mpr (not_lt.mp beyond)) (by linarith [mul_pos opens after])
  have crossed := mul_pos after above
  linarith

end ChangesSign

end Quadratic

section Crossing

/-- The square of the distance at a place of the segment, less that of the radius. -/
def crossingQuadratic [Arith F] (radius : F) (near far : List F) : Quadratic F :=
  let leg := far.zipWith (fun z s => z - s) near
  ⟨dot leg leg, (1 + 1) * dot near leg, dot near near - radius * radius⟩

theorem crossing_eq [Arith F] (radius : F) (near far : List F) : crossing radius near far =
    near.zipWith (fun s v => s + (crossingQuadratic radius near far).place * v)
      (far.zipWith (fun z s => z - s) near) := rfl

variable [ExactOrderedField F] {n : Nat} {near far : List F} {radius : F}

private theorem add_smul_dotProduct_self (u v : Fin n → F) (place : F) :
    (u + place • v) ⬝ᵥ (u + place • v) =
      v ⬝ᵥ v * (place * place) + 2 * (u ⬝ᵥ v) * place + u ⬝ᵥ u := by
  simp only [add_dotProduct, dotProduct_add, smul_dotProduct, dotProduct_smul, smul_eq_mul,
    dotProduct_comm v u]
  ring

theorem vector_leg (length : near.length = n) (long : far.length = n) :
    vector (far.zipWith (fun z s => z - s) near) n = vector far n - vector near n :=
  vector_zipWith (fun z s => z - s) long length

/-- What the quadratic stands for. -/
theorem distance_eq (radius : F) (length : near.length = n) (long : far.length = n) (place : F) :
    (vector near n + place • (vector far n - vector near n)) ⬝ᵥ
        (vector near n + place • (vector far n - vector near n)) =
      (crossingQuadratic radius near far).square * (place * place) +
        (crossingQuadratic radius near far).linear * place +
        (crossingQuadratic radius near far).constant + radius * radius := by
  have wide : (far.zipWith (fun z s => z - s) near).length = n := length_zipWith_eq long length
  rw [crossingQuadratic, dot_eq_dotProduct wide, dot_eq_dotProduct length,
    dot_eq_dotProduct length, vector_leg length long, add_smul_dotProduct_self]
  ring

variable [ExactRoots F]

/-- The quadratic changes its sign on a segment that leaves the ball. -/
theorem crossingQuadratic_changesSign (length : near.length = n) (long : far.length = n)
    (inside : norm near < radius) (outside : radius < norm far) :
    (crossingQuadratic radius near far).ChangesSign := by
  have positive : 0 < radius := (norm_nonneg near).trans_lt inside
  have wide : (far.zipWith (fun z s => z - s) near).length = n := length_zipWith_eq long length
  constructor
  case opens =>
    change 0 < dot _ _
    rw [dot_eq_dotProduct wide, vector_leg length long]
    refine (dotProduct_self_nonneg _).lt_of_ne' fun zero => ?_
    rw [dotProduct_self_eq_zero, sub_eq_zero] at zero
    rw [vector_injective long length zero] at outside
    exact outside.not_gt inside
  case below =>
    change dot near near - radius * radius < 0
    rw [sub_neg, dot_eq_dotProduct length, ← squares_eq_dotProduct length, ← norm_mul_self]
    exact mul_self_lt_mul_self (norm_nonneg near) inside
  case above =>
    have grows := mul_self_lt_mul_self positive.le outside
    have whole := distance_eq radius length long 1
    rw [one_smul, add_sub_cancel, ← squares_eq_dotProduct long, ← norm_mul_self] at whole
    linarith

/-- The crossing lies on the segment, strictly inside, and at the radius. -/
theorem crossing_spec (length : near.length = n) (long : far.length = n)
    (inside : norm near < radius) (outside : radius < norm far) :
    0 < (crossingQuadratic radius near far).place ∧ (crossingQuadratic radius near far).place < 1 ∧
      vector (crossing radius near far) n = vector near n +
        (crossingQuadratic radius near far).place • (vector far n - vector near n) ∧
      norm (crossing radius near far) = radius := by
  have positive : 0 < radius := (norm_nonneg near).trans_lt inside
  have changes := crossingQuadratic_changesSign length long inside outside
  have entries : vector (crossing radius near far) n = vector near n +
      (crossingQuadratic radius near far).place • (vector far n - vector near n) := by
    rw [← vector_leg length long]
    exact vector_zipWith (fun s v => s + _ * v) length (length_zipWith_eq long length)
  obtain ⟨after, before, equation⟩ := changes.place_spec
  refine ⟨after, before, entries, norm_eq positive.le ?_⟩
  have same : far.length = near.length := long.trans length.symm
  rw [squares_eq_dotProduct ((LinearModel.length_crossing radius same).trans length), entries,
    distance_eq radius length long, equation, zero_add]

end Crossing

end ImplicitDiff
