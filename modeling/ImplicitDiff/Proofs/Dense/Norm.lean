import Mathlib.Tactic
import ImplicitDiff.Dense.Basic
import ImplicitDiff.Proofs.Roots

/-! # Lengths in exact arithmetic

The length of a vector is computed relative to its largest entry, to keep squares in range. In exact
arithmetic this is the root of the sum of the squares.
-/

namespace ImplicitDiff

open Arith

variable {F : Type}

section Field

variable [ExactField F]

theorem foldl_add_eq_sum {α : Type} (f : α → F) (items : List α) (start : F) :
    items.foldl (fun sum a => sum + f a) start = start + (items.map f).sum := by
  induction items generalizing start with
  | nil => simp
  | cons a rest ih =>
    rw [List.foldl_cons, ih, List.map_cons, List.sum_cons, add_assoc]

theorem dot_eq_sum (u v : List F) : dot u v = ((u.zip v).map fun pair => pair.1 * pair.2).sum :=
  (foldl_add_eq_sum (fun pair : F × F => pair.1 * pair.2) (u.zip v) 0).trans (zero_add _)

@[simp] theorem dot_nil (v : List F) : dot [] v = 0 := rfl

@[simp] theorem dot_cons (a b : F) (u v : List F) : dot (a :: u) (b :: v) = a * b + dot u v := by
  rw [dot_eq_sum, dot_eq_sum, List.zip_cons_cons, List.map_cons, List.sum_cons]

theorem dot_append {u v : List F} (same : u.length = v.length) (u' v' : List F) :
    dot (u ++ u') (v ++ v') = dot u v + dot u' v' := by
  rw [dot_eq_sum, dot_eq_sum, dot_eq_sum, List.zip_append same, List.map_append, List.sum_append]

theorem dot_concat {u v : List F} (same : u.length = v.length) (a b : F) :
    dot (u ++ [a]) (v ++ [b]) = dot u v + a * b := by
  rw [dot_append same, dot_cons, dot_nil, add_zero]

theorem dot_comm (u v : List F) : dot u v = dot v u := by
  induction u generalizing v with
  | nil => cases v <;> rfl
  | cons a u ih =>
    cases v with
    | nil => rfl
    | cons b v => rw [dot_cons, dot_cons, ih, mul_comm]

/-- The product with a row of which a multiple of another row was subtracted. -/
theorem dot_sub_mul {u w : List F} (same : u.length = w.length) (c : F) (v : List F) :
    dot (u.zipWith (fun a b => a - c * b) w) v = dot u v - c * dot w v := by
  induction u generalizing w v with
  | nil =>
    obtain rfl := List.length_eq_zero_iff.mp same.symm
    simp
  | cons a u ih =>
    obtain ⟨b, w, rfl⟩ := List.exists_cons_of_length_eq_add_one same.symm
    cases v with
    | nil => simp [dot]
    | cons x v =>
      rw [List.zipWith_cons_cons, dot_cons, dot_cons, dot_cons, ih (Nat.succ.inj same)]
      ring

end Field

/-- The sum of the squares of the entries. -/
def squares [ExactField F] (v : List F) : F := (v.map fun x => x * x).sum

section Largest

variable [ExactOrderedField F] {v : List F}

theorem squares_nonneg (v : List F) : 0 ≤ squares v := by
  refine List.sum_nonneg ?_
  rw [List.forall_mem_map]
  exact fun x _ => mul_self_nonneg x

theorem squares_eq_zero_iff : squares v = 0 ↔ ∀ x ∈ v, x = 0 := by
  induction v with
  | nil => simp [squares]
  | cons x v ih =>
    have split : squares (x :: v) = x * x + squares v := List.sum_cons
    rw [split, add_eq_zero_iff_of_nonneg (mul_self_nonneg x) (squares_nonneg v), mul_self_eq_zero,
      ih, List.forall_mem_cons]

private theorem foldl_max_eq_zero_iff {start : F} (nonneg : 0 ≤ start) :
    v.foldl (fun m x => max m (Arith.abs x)) start = 0 ↔ start = 0 ∧ ∀ x ∈ v, x = 0 := by
  induction v generalizing start with
  | nil => simp
  | cons x v ih =>
    rw [List.foldl_cons, ih (nonneg.trans (le_max_left ..)), List.forall_mem_cons, ← and_assoc,
      Arith.abs_eq]
    refine and_congr_left' ⟨fun zero => ?_, fun ⟨first, second⟩ => ?_⟩
    · have below := zero ▸ le_max_left start |x|
      have under := zero ▸ le_max_right start |x|
      exact ⟨below.antisymm nonneg, abs_nonpos_iff.mp under⟩
    · rw [first, second, abs_zero, max_self]

theorem largest_eq_zero_iff : largest v = 0 ↔ ∀ x ∈ v, x = 0 := by
  rw [largest, foldl_max_eq_zero_iff le_rfl, and_iff_right rfl]

theorem le_foldl_max (start : F) (v : List F) :
    start ≤ v.foldl (fun m x => max m (Arith.abs x)) start := by
  induction v generalizing start with
  | nil => exact le_rfl
  | cons x v ih => exact (le_max_left ..).trans (ih _)

theorem largest_nonneg (v : List F) : 0 ≤ largest v := le_foldl_max 0 v

theorem abs_le_largest {x : F} (member : x ∈ v) : |x| ≤ largest v := by
  obtain ⟨before, after, rfl⟩ := List.append_of_mem member
  rw [largest, List.foldl_append, List.foldl_cons, ← Arith.abs_eq]
  exact (le_max_right ..).trans (le_foldl_max ..)

end Largest

section Norm

variable [ExactOrderedField F] [ExactRoots F] {v : List F}

theorem norm_nonneg_and_mul_self (v : List F) : 0 ≤ norm v ∧ norm v * norm v = squares v := by
  have finite : isFinite (largest v) = true := ExactRoots.isFinite_eq _
  have numbers : v.any isNaN = false := by
    rw [List.any_eq_false]
    exact fun x _ => by simp [ExactRoots.isNaN_eq]
  unfold norm
  dsimp only
  rw [finite, numbers, foldl_add_eq_sum (fun x => x / largest v * (x / largest v)), zero_add]
  by_cases zero : largest v = 0
  · rw [if_pos (by simp [zero]), if_neg Bool.false_ne_true, zero, mul_zero, eq_comm (a := 0),
      squares_eq_zero_iff]
    exact ⟨le_rfl, largest_eq_zero_iff.mp zero⟩
  · have relative : (v.map fun x => x / largest v * (x / largest v)).sum =
        squares v / (largest v * largest v) := by
      simp only [div_mul_div_comm]
      simp only [squares, div_eq_mul_inv, List.sum_map_mul_right]
    rw [if_neg (by simp [zero]), relative]
    have below : 0 ≤ squares v / (largest v * largest v) :=
      div_nonneg (squares_nonneg v) (mul_self_nonneg _)
    refine ⟨mul_nonneg (largest_nonneg v) (ExactRoots.sqrt_nonneg below), ?_⟩
    rw [mul_mul_mul_comm, ExactRoots.sqrt_mul_self below]
    exact mul_div_cancel₀ _ (mul_self_ne_zero.mpr zero)

theorem norm_nonneg (v : List F) : 0 ≤ norm v := (norm_nonneg_and_mul_self v).1

theorem norm_mul_self (v : List F) : norm v * norm v = squares v :=
  (norm_nonneg_and_mul_self v).2

/-- The length is the only number that is not negative and whose square is the sum of squares. -/
theorem norm_eq {a : F} (nonneg : 0 ≤ a) (square : a * a = squares v) : norm v = a :=
  (mul_self_inj (norm_nonneg v) nonneg).mp ((norm_mul_self v).trans square.symm)

theorem norm_eq_zero_iff : norm v = 0 ↔ ∀ x ∈ v, x = 0 := by
  rw [← squares_eq_zero_iff, ← norm_mul_self, mul_self_eq_zero]

theorem norm_singleton (c : F) : norm [c] = |c| := by
  refine norm_eq (abs_nonneg c) ?_
  rw [abs_mul_abs_self]
  simp [squares]

/-- A multiple of a vector is as many times as long. -/
theorem norm_scale {c : F} (nonneg : 0 ≤ c) (v : List F) :
    norm (v.map fun x => c * x) = c * norm v := by
  refine norm_eq (mul_nonneg nonneg (norm_nonneg v)) ?_
  rw [mul_mul_mul_comm, norm_mul_self, squares, squares, List.map_map, ← List.sum_map_mul_left]
  exact congrArg List.sum (List.map_congr_left fun x _ => mul_mul_mul_comm ..)

theorem Rows.allFinite_eq (a : Rows F) : a.allFinite = true :=
  List.all_eq_true.mpr fun _ _ => List.all_eq_true.mpr fun x _ => ExactRoots.isFinite_eq x

end Norm

end ImplicitDiff
