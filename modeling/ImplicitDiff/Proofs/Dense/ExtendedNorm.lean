import Mathlib.Tactic
import ImplicitDiff.Proofs.Extended
import ImplicitDiff.Proofs.FiniteSums
import ImplicitDiff.Proofs.Dense.Norm

/-! # Lengths of vectors that need not be finite

The scale of a length passes over entries that are no numbers, so it says nothing of them. They are
found in two ways: by a search among the entries, where the scale is zero or infinite, and otherwise
by the sum of the squares, which they spoil. Both together tell vectors with an entry that is no
number from those with an infinite one, and these from vectors of numbers, whose length is the root
of the sum of the squares.
-/

namespace ImplicitDiff

open Arith Extended

variable {K : Type} [ExactOrderedField K]

/-! ## Extended arithmetic beside machine arithmetic -/

namespace Extended

variable {a b : Extended K}

theorem isNaN_iff : isNaN a = true ↔ a = missing := by
  cases a <;> simp [isNaN]

theorem isFinite_iff_number : isFinite a = true ↔ ∃ c, a = number c := by
  cases a <;> simp [isFinite]

theorem isInfinite_iff : IsInfinite a ↔ ∃ p, a = infinite p := by
  cases a <;> simp [IsInfinite, isFinite, isNaN]

theorem isZero_iff : IsZero a ↔ a = number 0 := by
  cases a with
  | number c =>
    rw [number.injEq]
    exact ExactField.beq_iff_eq c 0
  | infinite p => exact ⟨nofun, nofun⟩
  | missing => exact ⟨nofun, nofun⟩

theorem infinite_pos_iff : IsInfinite a ∧ 0 < a ↔ a = infinite true := by
  cases a with
  | number c => exact ⟨fun ⟨⟨finite, _⟩, _⟩ => (nomatch finite), nofun⟩
  | infinite p =>
    rw [infinite.injEq]
    exact ⟨And.right, fun positive => ⟨⟨rfl, rfl⟩, positive⟩⟩
  | missing => exact ⟨fun ⟨⟨_, present⟩, _⟩ => (nomatch present), nofun⟩

@[simp] theorem add_missing (a : Extended K) : a + missing = missing := by cases a <;> rfl

@[simp] theorem mul_missing (a : Extended K) : a * missing = missing := by cases a <;> rfl

@[simp] theorem missing_div (a : Extended K) : missing / a = missing := by cases a <;> rfl

@[simp] theorem div_missing (a : Extended K) : a / missing = missing := by cases a <;> rfl

theorem sub_eq (a b : Extended K) : a - b = a + -b := rfl

@[simp] theorem neg_missing : -(missing : Extended K) = missing := rfl

theorem isFinite_scale (p : Bool) (c : K) : isFinite (scale p c) = false := by
  unfold scale
  split_ifs <;> rfl

/-- A quotient by zero is never finite. -/
theorem isFinite_div_zero (a : Extended K) : isFinite (a / number 0) = false := by
  cases a with
  | number c =>
    change isFinite (if (0 : K) = 0 then scale true c else number (c / 0)) = false
    rw [if_pos rfl, isFinite_scale]
  | infinite p => rfl
  | missing => rfl

instance : FiniteSums (Extended K) where
  isNaN_sub {a b} missing := by
    rw [isNaN_iff, isNaN_iff] at missing
    rcases missing with rfl | rfl <;> simp [sub_eq, isNaN_iff]
  isNaN_mul {a b} missing := by
    rw [isNaN_iff, isNaN_iff] at missing
    rcases missing with rfl | rfl <;> simp [isNaN_iff]
  isNaN_div {a b} missing := by
    rw [isNaN_iff, isNaN_iff] at missing
    rcases missing with rfl | rfl <;> simp [isNaN_iff]
  isNaN_add {a b} missing := by
    rw [isNaN_iff, isNaN_iff] at missing
    rcases missing with rfl | rfl <;> simp [isNaN_iff]
  isNaN_neg {a} missing := by
    rw [isNaN_iff.mp missing, neg_missing]
    rfl
  isNaN_sqrt {a} missing := by
    rw [isNaN_iff.mp missing]
    rfl
  isNaN_nan := rfl
  infinite_abs {a} infinite := by
    obtain ⟨p, rfl⟩ := isInfinite_iff.mp infinite
    cases p <;> exact infinite_pos_iff.mpr rfl
  infinite_max {a b} either := by
    rw [infinite_pos_iff, infinite_pos_iff] at either
    rw [infinite_pos_iff]
    rcases either with rfl | rfl
    · rcases b with c | ⟨_ | _⟩ | _ <;> rfl
    · rcases a with c | ⟨_ | _⟩ | _ <;> rfl
  isFinite_neg {a} finite := by
    obtain ⟨c, rfl⟩ := isFinite_iff_number.mp finite
    rfl
  isFinite_of_mul {a b} finite := by
    rcases a with c | p | _ <;> rcases b with d | q | _
    case number.number => exact ⟨rfl, rfl⟩
    case number.infinite | infinite.number =>
      simp only [number_mul_infinite, infinite_mul_number, isFinite_scale] at finite
      cases finite
    all_goals cases finite
  isFinite_of_add {a b} finite := by
    rcases a with c | ⟨_ | _⟩ | _ <;> rcases b with d | ⟨_ | _⟩ | _
    case number.number => exact ⟨rfl, rfl⟩
    all_goals cases finite
  isNaN_add_of_isFinite {a b} present finite := by
    obtain ⟨d, rfl⟩ := isFinite_iff_number.mp finite
    cases a with
    | number c => rfl
    | infinite p => rfl
    | missing => cases present
  isNaN_of_isFinite {a} finite := by
    obtain ⟨c, rfl⟩ := isFinite_iff_number.mp finite
    rfl
  isNaN_of_lt {a b} below := by
    cases a with
    | number c => rfl
    | infinite p => rfl
    | missing => cases b <;> cases below
  not_infinite_lt {a b} infinite positive := by
    obtain rfl := infinite_pos_iff.mp ⟨infinite, positive⟩
    rcases b with c | ⟨_ | _⟩ | _
    case number => exact nofun
    all_goals exact of_decide_eq_false rfl
  lt_irrefl a := by
    cases a with
    | number c => exact lt_irrefl c
    | infinite p => exact lt_irrefl p
    | missing => exact id
  isZero_zero := isZero_iff.mpr rfl
  isZero_add {a b} left right := by
    obtain ⟨rfl, rfl⟩ := And.intro (isZero_iff.mp left) (isZero_iff.mp right)
    rw [isZero_iff, number_add_number, add_zero]
  isZero_sub {a b} left right := by
    obtain ⟨rfl, rfl⟩ := And.intro (isZero_iff.mp left) (isZero_iff.mp right)
    rw [isZero_iff]
    exact congrArg number (by simp)
  isZero_neg {a} zero := by
    obtain rfl := isZero_iff.mp zero
    exact isZero_iff.mpr (congrArg number neg_zero)
  isZero_mul {a b} zero finite := by
    obtain rfl := isZero_iff.mp zero
    obtain ⟨c, rfl⟩ := isFinite_iff_number.mp finite
    rw [isZero_iff, number_mul_number, zero_mul]
  isZero_mul_right {a b} finite zero := by
    obtain rfl := isZero_iff.mp zero
    obtain ⟨c, rfl⟩ := isFinite_iff_number.mp finite
    rw [isZero_iff, number_mul_number, mul_zero]
  isZero_div {a b c} zero finite := by
    obtain rfl := isZero_iff.mp zero
    cases b with
    | number d =>
      by_cases vanishes : d = 0
      · rw [vanishes, isFinite_div_zero] at finite
        cases finite
      · rw [number_div_number 0 vanishes, zero_div, isZero_iff]
    | infinite p => exact isZero_iff.mpr rfl
    | missing =>
      rw [div_missing] at finite
      cases finite
  isNaN_zero_mul {a b} zero infinite := by
    obtain rfl := isZero_iff.mp zero
    cases b with
    | number c => cases infinite
    | infinite p => exact isNaN_iff.mpr (scale_zero p)
    | missing => rfl

private theorem number_max (c d : K) : max (number c) (number d) = number (max c d) := by
  rcases lt_or_ge c d with below | above
  · rw [max_eq_right below.le]
    exact if_pos below
  · rw [max_eq_left above]
    exact if_neg above.not_gt

omit [ExactOrderedField K] in
/-- A vector without other entries is one of numbers. -/
theorem exists_map_number {v : List (Extended K)} (present : missing ∉ v)
    (bounded : ∀ p, infinite p ∉ v) : ∃ w : List K, v = w.map number := by
  have numbers (a : Extended K) (member : a ∈ v) : a ∈ Set.range (number (K := K)) := by
    cases a with
    | number c => exact ⟨c, rfl⟩
    | infinite p => exact absurd member (bounded p)
    | missing => exact absurd member present
  have listed : v ∈ Set.range (List.map (number (K := K))) := by
    rw [Set.range_list_map]
    exact numbers
  obtain ⟨w, rfl⟩ := listed
  exact ⟨w, rfl⟩

end Extended

/-! ## Lengths -/

theorem largest_numbers (w : List K) : largest (w.map number) = number (largest w) := by
  rw [largest, List.foldl_map]
  exact List.foldl_hom number fun m x => number_max m (Arith.abs x)

private theorem norm_of_missing {v : List (Extended K)} (member : missing ∈ v) : norm v = missing :=
  isNaN_iff.mp (isNaN_norm member rfl)

/-- Infinite entries make the length infinite, where all entries are numbers or infinite. -/
theorem norm_of_infinite {v : List (Extended K)} (present : missing ∉ v) {p : Bool}
    (member : infinite p ∈ v) : norm v = infinite true := by
  have scale : largest v = infinite true :=
    infinite_pos_iff.mp (infinite_largest member (isInfinite_iff.mpr ⟨p, rfl⟩))
  have none : v.any isNaN = false := by
    rw [List.any_eq_false]
    rintro a listed missing
    exact present (isNaN_iff.mp missing ▸ listed)
  rw [norm, scale, none]
  rfl

section Roots

variable [ExactRoots K]

/-- Numbers are as long as they are without the other values. -/
theorem norm_numbers (w : List K) : norm (w.map number) = number (norm w) := by
  have none : (w.map number).any isNaN = false := by
    rw [List.any_map, List.any_eq_false]
    exact fun _ _ => Bool.false_ne_true
  have present : w.any isNaN = false :=
    List.any_eq_false.mpr fun x _ => by simp [ExactRoots.isNaN_eq]
  have finite : isFinite (number (largest w)) = isFinite (largest w) :=
    (ExactRoots.isFinite_eq _).symm
  have test : (number (largest w) == 0) = (largest w == 0) := rfl
  unfold norm
  rw [largest_numbers, none, present]
  dsimp only
  rw [finite, test, ExactRoots.isFinite_eq]
  by_cases zero : largest w = 0
  · rw [beq_iff_eq.mpr zero]
    rfl
  · have relative : w.foldl (fun sum x => let r := number x / number (largest w); sum + r * r)
        (number 0) = number (w.foldl (fun sum x => let r := x / largest w; sum + r * r) 0) := by
      refine List.foldl_hom number fun sum x => ?_
      dsimp only
      rw [number_div_number x zero, number_mul_number, number_add_number]
    rw [beq_eq_false_iff_ne.mpr zero, List.foldl_map, zero_eq, relative]
    have below : 0 ≤ w.foldl (fun sum x => let r := x / largest w; sum + r * r) 0 := by
      rw [foldl_add_eq_sum (fun x => x / largest w * (x / largest w)), zero_add]
      exact List.sum_nonneg (List.forall_mem_map.mpr fun x _ => mul_self_nonneg _)
    exact congrArg (number (largest w) * ·) (if_neg below.not_gt)

private theorem abs_le_norm {w : List K} {a : K} (member : a ∈ w) : |a| ≤ norm w := by
  refine abs_le_of_sq_le_sq ?_ (norm_nonneg w)
  rw [sq, sq, norm_mul_self]
  exact List.single_le_sum (List.forall_mem_map.mpr fun x _ => mul_self_nonneg x) _
    (List.mem_map_of_mem member)

/-- **What the length says of a vector.** It is no number exactly if some entry is none, infinite
exactly if all entries are numbers or infinite and some is infinite, and otherwise the number that
is not negative and whose square is the sum of the squares. That number bounds all entries and is
zero for none but zeros. -/
theorem norm_classifies (v : List (Extended K)) :
    (norm v = missing ↔ missing ∈ v) ∧
      (norm v = infinite true ↔ missing ∉ v ∧ ∃ p, infinite p ∈ v) ∧
      (missing ∉ v → (∀ p, infinite p ∉ v) → ∃ (w : List K) (c : K), v = w.map number ∧
        norm v = number c ∧ 0 ≤ c ∧ c * c = (w.map fun a => a * a).sum ∧ (∀ a ∈ w, |a| ≤ c) ∧
        (c = 0 ↔ ∀ a ∈ w, a = 0)) := by
  by_cases spoiled : missing ∈ v
  · rw [norm_of_missing spoiled]
    exact ⟨iff_of_true rfl spoiled, iff_of_false nofun fun ⟨present, _⟩ => present spoiled,
      fun present _ => absurd spoiled present⟩
  · by_cases unbounded : ∃ p, infinite p ∈ v
    · obtain ⟨p, member⟩ := unbounded
      rw [norm_of_infinite spoiled member]
      exact ⟨iff_of_false nofun spoiled, iff_of_true rfl ⟨spoiled, p, member⟩,
        fun _ bounded => absurd member (bounded p)⟩
    · obtain ⟨w, rfl⟩ := exists_map_number spoiled (not_exists.mp unbounded)
      rw [norm_numbers]
      exact ⟨iff_of_false nofun spoiled, iff_of_false nofun fun ⟨_, entry⟩ => unbounded entry,
        fun _ _ => ⟨w, norm w, rfl, rfl, norm_nonneg w, norm_mul_self w,
          fun _ => abs_le_norm, norm_eq_zero_iff⟩⟩

/-- A vector of each kind. What is no number stands behind an infinite entry, and among zeros, in
the first two. -/
theorem norm_classifies_mixed :
    norm [number 3, infinite false, (missing : Extended ℝ)] = missing ∧
      norm [number 0, (missing : Extended ℝ)] = missing ∧
      norm [number 0, (infinite false : Extended ℝ)] = infinite true ∧
      norm [number (3 : ℝ), number (-4)] = number 5 := by
  refine ⟨(norm_classifies _).1.mpr (by simp), (norm_classifies _).1.mpr (by simp),
    (norm_classifies _).2.1.mpr (by simp), ?_⟩
  obtain ⟨w, c, same, length, nonneg, square, -⟩ :=
    (norm_classifies [number (3 : ℝ), number (-4)]).2.2 (by simp) (by simp)
  obtain rfl : [3, -4] = w := List.map_injective_iff.mpr (fun _ _ => number.inj) same
  rw [length]
  have square : c * c = 5 * 5 := square.trans (by norm_num)
  rw [(mul_self_inj nonneg (by norm_num)).mp square]

end Roots

end ImplicitDiff
