import ImplicitDiff.Proofs.Exact

/-! # Expansions to first order

In an ordered field without limits a derivative is a linear term whose error is bounded by a
multiple of the square. Numbers that move with one parameter and have such a term are closed under
the operations of a program, and the terms follow the rules of dual numbers.
-/

namespace ImplicitDiff

section Bounds

variable {F : Type} [Field F] [LinearOrder F]

/-- Whether something holds of all small numbers. -/
def Near (p : F → Prop) : Prop := ∃ δ, 0 < δ ∧ ∀ h, |h| < δ → p h

/-- Whether the values at small numbers are bounded. -/
def Bounded (r : F → F) : Prop := ∃ C, Near fun h => |r h| ≤ C

namespace Near

variable {p q : F → Prop}

theorem mono (near : Near p) (imp : ∀ h, p h → q h) : Near q := by
  obtain ⟨δ, positive, small⟩ := near
  exact ⟨δ, positive, fun h inside => imp h (small h inside)⟩

theorem and (left : Near p) (right : Near q) : Near fun h => p h ∧ q h := by
  obtain ⟨δ, positive, small⟩ := left
  obtain ⟨ε, positive', small'⟩ := right
  refine ⟨min δ ε, lt_min positive positive', fun h inside => ⟨?_, ?_⟩⟩
  · exact small h (inside.trans_le (min_le_left _ _))
  · exact small' h (inside.trans_le (min_le_right _ _))

variable [IsStrictOrderedRing F]

theorem of_forall (all : ∀ h, p h) : Near p := ⟨1, one_pos, fun h _ => all h⟩

theorem at_zero (near : Near p) : p 0 := by
  obtain ⟨δ, positive, small⟩ := near
  exact small 0 (abs_zero.trans_lt positive)

end Near

namespace Bounded

variable [IsStrictOrderedRing F] {r s : F → F}

theorem const (c : F) : Bounded fun _ => c := ⟨|c|, .of_forall fun _ => le_rfl⟩

theorem id : Bounded fun h : F => h := ⟨1, 1, one_pos, fun _ inside => inside.le⟩

theorem add (left : Bounded r) (right : Bounded s) : Bounded fun h => r h + s h := by
  obtain ⟨C, small⟩ := left
  obtain ⟨D, small'⟩ := right
  exact ⟨C + D, (small.and small').mono fun h both =>
    (abs_add_le _ _).trans (add_le_add both.1 both.2)⟩

theorem mul (left : Bounded r) (right : Bounded s) : Bounded fun h => r h * s h := by
  obtain ⟨C, small⟩ := left
  obtain ⟨D, small'⟩ := right
  refine ⟨C * D, (small.and small').mono fun h both => ?_⟩
  rw [abs_mul]
  exact mul_le_mul both.1 both.2 (abs_nonneg _) ((abs_nonneg _).trans both.1)

/-- A multiple of a small number is small. -/
theorem lt (bounded : Bounded r) {ε : F} (positive : 0 < ε) : Near fun h => |h * r h| < ε := by
  obtain ⟨C, δ, positive', small⟩ := bounded
  have steep : 0 < |C| + 1 := add_pos_of_nonneg_of_pos (abs_nonneg C) one_pos
  refine ⟨min δ (ε / (|C| + 1)), lt_min positive' (div_pos positive steep), fun h inside => ?_⟩
  have bound := small h (inside.trans_le (min_le_left _ _))
  calc |h * r h| = |h| * |r h| := abs_mul _ _
    _ ≤ |h| * (|C| + 1) :=
      mul_le_mul_of_nonneg_left (bound.trans ((le_abs_self C).trans (lt_add_one _).le))
        (abs_nonneg h)
    _ < ε := (lt_div_iff₀ steep).mp (inside.trans_le (min_le_right _ _))

end Bounded

end Bounds

variable {F : Type} [ExactOrderedField F]

/-- Near zero `g` moves with the rate of a dual number from its value, up to an error of second
order. -/
def Expands (g : F → F) (d : Dual F) : Prop :=
  ∃ r, Bounded r ∧ Near fun h => g h = d.primal + h * d.tangent + h ^ 2 * r h

namespace Expands

variable {f g : F → F} {a b : Dual F}

/-- A number that is the same near zero has the same expansion. -/
theorem congr (expands : Expands g a) (same : Near fun h => f h = g h)
    (value : b.primal = a.primal) (rate : b.tangent = a.tangent) : Expands f b := by
  obtain ⟨r, bounded, near⟩ := expands
  refine ⟨r, bounded, (same.and near).mono fun h both => ?_⟩
  rw [value, rate]
  exact both.1.trans both.2

theorem at_zero (expands : Expands g a) : g 0 = a.primal := by
  obtain ⟨r, -, near⟩ := expands
  rw [near.at_zero]
  ring

/-- The error of the linear term is bounded by a multiple of the square. -/
theorem error_le (expands : Expands g a) :
    ∃ C, Near fun h => |g h - g 0 - h * a.tangent| ≤ C * h ^ 2 := by
  have start := expands.at_zero
  obtain ⟨r, ⟨C, bounded⟩, near⟩ := expands
  refine ⟨C, (bounded.and near).mono fun h both => ?_⟩
  have error : g h - g 0 - h * a.tangent = r h * h ^ 2 := by
    rw [both.2, start]
    ring
  rw [error, abs_mul, abs_of_nonneg (sq_nonneg h)]
  exact mul_le_mul_of_nonneg_right both.1 (sq_nonneg h)

/-- No other rate leaves an error of second order. -/
theorem eq_tangent (expands : Expands g a) {rate C : F}
    (near : Near fun h => |g h - g 0 - h * rate| ≤ C * h ^ 2) : rate = a.tangent := by
  by_contra differ
  have gap : 0 < |rate - a.tangent| := abs_pos.mpr (sub_ne_zero.mpr differ)
  obtain ⟨D, error⟩ := expands.error_le
  obtain ⟨δ, positive, small⟩ := (near.and error).and ((Bounded.const (C + D)).lt gap)
  have half : 0 < δ / 2 := half_pos positive
  have inside : |δ / 2| < δ := by
    rw [abs_of_pos half]
    exact half_lt_self positive
  obtain ⟨⟨first, second⟩, less⟩ := small (δ / 2) inside
  -- The two rates differ by less than twice the step, and the step is as small as one likes.
  have split : δ / 2 * (rate - a.tangent) =
      (g (δ / 2) - g 0 - δ / 2 * a.tangent) - (g (δ / 2) - g 0 - δ / 2 * rate) := by
    ring
  have sum : δ / 2 * |rate - a.tangent| ≤ δ / 2 * (δ / 2 * (C + D)) :=
    calc δ / 2 * |rate - a.tangent|
      _ = |δ / 2 * (rate - a.tangent)| := by rw [abs_mul, abs_of_pos half]
      _ ≤ D * (δ / 2) ^ 2 + C * (δ / 2) ^ 2 := by
        rw [split]
        exact (abs_sub _ _).trans (add_le_add second first)
      _ = δ / 2 * (δ / 2 * (C + D)) := by ring
  exact absurd ((le_of_mul_le_mul_left sum half).trans (le_abs_self _)) less.not_ge

theorem constant (c : F) : Expands (fun _ => c) (Dual.constant c) := by
  refine ⟨fun _ => 0, .const 0, .of_forall fun h => ?_⟩
  simp only [Dual.constant]
  ring

/-- A number that moves along a line. -/
theorem line (c rate : F) : Expands (fun h => c + h * rate) ⟨c, rate⟩ := by
  refine ⟨fun _ => 0, .const 0, .of_forall fun h => ?_⟩
  ring

theorem add (left : Expands f a) (right : Expands g b) :
    Expands (fun h => f h + g h) (a + b) := by
  obtain ⟨r, bounded, near⟩ := left
  obtain ⟨s, bounded', near'⟩ := right
  refine ⟨_, bounded.add bounded', (near.and near').mono fun h both => ?_⟩
  change f h + g h = a.primal + b.primal + h * (a.tangent + b.tangent) + h ^ 2 * (r h + s h)
  rw [both.1, both.2]
  ring

theorem mul (left : Expands f a) (right : Expands g b) :
    Expands (fun h => f h * g h) (a * b) := by
  obtain ⟨r, bounded, near⟩ := left
  obtain ⟨s, bounded', near'⟩ := right
  -- What is left of the product besides its value and its linear term, divided by the square.
  have rest : Bounded fun h => (a.primal * s h + b.primal * r h + a.tangent * b.tangent) +
      h * (a.tangent * s h + b.tangent * r h + h * (r h * s h)) :=
    ((((Bounded.const _).mul bounded').add ((Bounded.const _).mul bounded)).add (.const _)).add
      (Bounded.id.mul ((((Bounded.const _).mul bounded').add ((Bounded.const _).mul bounded)).add
        (Bounded.id.mul (bounded.mul bounded'))))
  refine ⟨_, rest, (near.and near').mono fun h both => ?_⟩
  change f h * g h = a.primal * b.primal +
    h * (a.primal * b.tangent + a.tangent * b.primal) + h ^ 2 * _
  rw [both.1, both.2]
  ring

theorem neg (expands : Expands g a) : Expands (fun h => -g h) (-a) := by
  refine ((constant (-1)).mul expands).congr (.of_forall fun h => (neg_one_mul _).symm) ?_ ?_
  · exact (neg_one_mul a.primal).symm
  · change -a.tangent = -1 * a.tangent + 0 * a.primal
    ring

theorem sub (left : Expands f a) (right : Expands g b) :
    Expands (fun h => f h - g h) (a - b) := by
  refine (left.add right.neg).congr (.of_forall fun h => sub_eq_add_neg _ _) ?_ ?_
  · exact sub_eq_add_neg a.primal b.primal
  · exact sub_eq_add_neg a.tangent b.tangent

/-- A number that has an expansion is continuous. -/
theorem close (expands : Expands g a) {ε : F} (positive : 0 < ε) :
    Near fun h => |g h - a.primal| < ε := by
  obtain ⟨r, bounded, near⟩ := expands
  have small := ((Bounded.const a.tangent).add (Bounded.id.mul bounded)).lt positive
  refine (small.and near).mono fun h both => ?_
  have moved : g h - a.primal = h * (a.tangent + h * r h) := by
    rw [both.2]
    ring
  rw [moved]
  exact both.1

theorem pos (expands : Expands g a) (positive : 0 < a.primal) : Near fun h => 0 < g h :=
  (expands.close positive).mono fun h near => by
    have := (abs_lt.mp near).1
    linarith

theorem lt (left : Expands f a) (right : Expands g b) (less : a.primal < b.primal) :
    Near fun h => f h < g h :=
  ((right.sub left).pos (sub_pos.mpr less)).mono fun _ => sub_pos.mp

theorem ne (left : Expands f a) (right : Expands g b) (differ : a.primal ≠ b.primal) :
    Near fun h => f h ≠ g h := by
  obtain below | above := lt_or_gt_of_ne differ
  · exact (left.lt right below).mono fun _ => ne_of_lt
  · exact (right.lt left above).mono fun _ => ne_of_gt

theorem ne_zero (expands : Expands g a) (nonzero : a.primal ≠ 0) : Near fun h => g h ≠ 0 :=
  expands.ne (constant 0) nonzero

/-- The reciprocals of numbers that keep away from zero are bounded. -/
theorem bounded_inv (expands : Expands g a) (nonzero : a.primal ≠ 0) :
    Bounded fun h => (g h)⁻¹ := by
  have half : 0 < |a.primal| / 2 := half_pos (abs_pos.mpr nonzero)
  refine ⟨(|a.primal| / 2)⁻¹, (expands.close half).mono fun h near => ?_⟩
  rw [abs_inv]
  refine inv_anti₀ half ?_
  have triangle := abs_sub_abs_le_abs_sub a.primal (g h)
  rw [abs_sub_comm] at triangle
  linarith

theorem inv (expands : Expands g a) (nonzero : a.primal ≠ 0) :
    Expands (fun h => (g h)⁻¹) ⟨a.primal⁻¹, -(a.tangent * (a.primal⁻¹ * a.primal⁻¹))⟩ := by
  have away := expands.ne_zero nonzero
  have inverse := expands.bounded_inv nonzero
  obtain ⟨r, bounded, near⟩ := expands
  have rest : Bounded fun h => (a.primal⁻¹ * a.primal⁻¹ * (a.tangent * a.tangent) +
      (a.primal⁻¹ * a.primal⁻¹) * (h * (a.tangent * r h)) + -a.primal⁻¹ * r h) * (g h)⁻¹ :=
    (((Bounded.const _).add ((Bounded.const _).mul (Bounded.id.mul
      ((Bounded.const _).mul bounded)))).add ((Bounded.const _).mul bounded)).mul inverse
  refine ⟨_, rest, (away.and near).mono fun h both => ?_⟩
  obtain ⟨apart, same⟩ := both
  field_simp
  rw [same]
  ring

theorem div (left : Expands f a) (right : Expands g b) (nonzero : b.primal ≠ 0) :
    Expands (fun h => f h / g h) (a / b) := by
  refine (left.mul (right.inv nonzero)).congr (.of_forall fun h => div_eq_mul_inv _ _) ?_ ?_
  · change a.primal * (1 / b.primal) = a.primal * b.primal⁻¹
    rw [one_div]
  · change (a.tangent * b.primal - a.primal * b.tangent) * (1 / b.primal) * (1 / b.primal) =
      a.primal * -(b.tangent * (b.primal⁻¹ * b.primal⁻¹)) + a.tangent * b.primal⁻¹
    field_simp
    ring

theorem pow (expands : Expands g a) (n : Nat) :
    Expands (fun h => g h ^ n) ⟨a.primal ^ n, a.tangent * (n * a.primal ^ (n - 1))⟩ := by
  induction n with
  | zero =>
    refine (constant 1).congr (.of_forall fun h => pow_zero _) (pow_zero _) ?_
    change a.tangent * (((0 : Nat) : F) * _) = 0
    rw [Nat.cast_zero, zero_mul, mul_zero]
  | succ n ih =>
    refine (ih.mul expands).congr (.of_forall fun h => pow_succ _ _) (pow_succ _ _) ?_
    change a.tangent * (((n + 1 : Nat) : F) * a.primal ^ n) =
      a.primal ^ n * a.tangent + a.tangent * (n * a.primal ^ (n - 1)) * a.primal
    cases n with
    | zero =>
      push_cast
      ring
    | succ n =>
      rw [Nat.add_sub_cancel]
      push_cast
      ring

/-- A power with a negative exponent is the reciprocal of one with a positive exponent. -/
theorem zpow (expands : Expands g a) {n : Int} (smooth : 1 ≤ n ∨ a.primal ≠ 0) :
    Expands (fun h => g h ^ n) ⟨a.primal ^ n, a.tangent * (n * a.primal ^ (n - 1))⟩ := by
  obtain ⟨m, rfl | rfl⟩ := n.eq_nat_or_neg
  · refine (expands.pow m).congr (.of_forall fun h => zpow_natCast _ _) (zpow_natCast _ _) ?_
    change a.tangent * (((m : Int) : F) * a.primal ^ ((m : Int) - 1)) = _
    cases m with
    | zero => simp
    | succ m => rw [Nat.cast_succ, add_sub_cancel_right, zpow_natCast, Nat.add_sub_cancel]; simp
  · obtain positive | nonzero := smooth
    · omega
    have inverse (c : F) : c ^ (-(m : Int)) = (c ^ m)⁻¹ := by rw [zpow_neg, zpow_natCast]
    refine ((expands.pow m).inv (pow_ne_zero m nonzero)).congr (.of_forall fun h => inverse _)
      (inverse _) ?_
    change a.tangent * (((-m : Int) : F) * a.primal ^ (-(m : Int) - 1)) =
      -(a.tangent * (m * a.primal ^ (m - 1)) * ((a.primal ^ m)⁻¹ * (a.primal ^ m)⁻¹))
    cases m with
    | zero => simp
    | succ m =>
      rw [zpow_sub_one₀ nonzero, inverse, Nat.add_sub_cancel]
      push_cast
      field_simp
      ring

theorem abs (expands : Expands g a) (nonzero : a.primal ≠ 0) :
    Expands (fun h => |g h|) ⟨|a.primal|, a.tangent * Arith.sign a.primal⟩ := by
  obtain below | above := lt_or_gt_of_ne nonzero
  · have negative : Near fun h => g h < 0 := expands.lt (constant 0) below
    refine expands.neg.congr (negative.mono fun h => abs_of_neg) (abs_of_neg below) ?_
    have sign : Arith.sign a.primal = -1 := ExactOrderedField.sign_of_neg _ below
    exact (congrArg (a.tangent * ·) sign).trans (mul_neg_one _)
  · refine expands.congr ((expands.pos above).mono fun h => abs_of_pos) (abs_of_pos above) ?_
    have sign : Arith.sign a.primal = 1 := ExactOrderedField.sign_of_pos _ above
    exact (congrArg (a.tangent * ·) sign).trans (mul_one _)

end Expands

end ImplicitDiff
