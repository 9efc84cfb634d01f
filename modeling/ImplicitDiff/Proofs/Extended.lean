import ImplicitDiff.Proofs.Exact

/-! # Exact arithmetic with infinities

Exact numbers leave out what machine arithmetic does beyond its numbers. Here they are joined by two
infinite values and one that is no number, with the rules that floats have for them: a quotient by
zero is infinite, zero times an infinite value is no number, and nothing compares with what is no
number. There is one zero, and it counts as positive where its sign matters.
-/

namespace ImplicitDiff

/-- An exact number, an infinite value or what is no number. -/
inductive Extended (K : Type) where
  /-- A number. -/
  | number (a : K)
  /-- A value above or below every number. -/
  | infinite (positive : Bool)
  /-- What is no number. -/
  | missing
deriving DecidableEq, Repr

namespace Extended

variable {K : Type} [ExactOrderedField K]

/-- Infinite values of both signs do not add up. -/
def add : Extended K → Extended K → Extended K
  | number a, number b => number (a + b)
  | missing, _ | _, missing => missing
  | infinite p, infinite q => if p = q then infinite p else missing
  | infinite p, number _ | number _, infinite p => infinite p

/-- The value with the opposite sign. -/
def neg : Extended K → Extended K
  | number a => number (-a)
  | infinite p => infinite !p
  | missing => missing

/-- An infinite value times a number. -/
def scale (positive : Bool) (a : K) : Extended K :=
  if a = 0 then missing else infinite (positive == decide (0 < a))

/-- Signs multiply, and zero times an infinite value is no number. -/
def mul : Extended K → Extended K → Extended K
  | number a, number b => number (a * b)
  | missing, _ | _, missing => missing
  | infinite p, infinite q => infinite (p == q)
  | infinite p, number a | number a, infinite p => scale p a

/-- A quotient by zero is infinite, unless zero is divided. -/
def div : Extended K → Extended K → Extended K
  | number a, number b => if b = 0 then mul (infinite true) (number a) else number (a / b)
  | missing, _ | _, missing | infinite _, infinite _ => missing
  | infinite p, number b => infinite (p == decide (0 ≤ b))
  | number _, infinite _ => number 0

/-- Whether two values are equal; what is no number equals nothing. -/
def equal : Extended K → Extended K → Bool
  | number a, number b => a == b
  | infinite p, infinite q => p == q
  | _, _ => false

/-- Whether one value is below another one. -/
def Below : Extended K → Extended K → Prop
  | number a, number b => a < b
  | number _, infinite p => p = true
  | infinite p, number _ => p = false
  | infinite p, infinite q => p < q
  | missing, _ | _, missing => False

instance decidableBelow : (a b : Extended K) → Decidable (Below a b)
  | number a, number b => inferInstanceAs (Decidable (a < b))
  | number _, infinite p => inferInstanceAs (Decidable (p = true))
  | infinite p, number _ => inferInstanceAs (Decidable (p = false))
  | infinite p, infinite q => inferInstanceAs (Decidable (p < q))
  | missing, _ | number _, missing | infinite _, missing => inferInstanceAs (Decidable False)

/-- A function of numbers, with its limits at both infinite values. -/
def lift (f : K → Extended K) (low high : Extended K) : Extended K → Extended K
  | number a => f a
  | infinite p => if p then high else low
  | missing => missing

/-- The power with an exponent of the number type. -/
def power : Extended K → Extended K → Extended K
  | number a, number b => if a = 0 ∧ b < 0 then infinite true else number (Arith.pow a b)
  | number a, infinite p =>
    if |a| = 1 then number 1 else if decide (1 < |a|) = p then infinite true else number 0
  | infinite p, number b =>
    if b = 0 then number 1
    else if 0 < b then infinite (p || decide (0 < Arith.pow (-1) b)) else number 0
  | infinite _, infinite p => if p then infinite true else number 0
  | missing, number b => if b = 0 then number 1 else missing
  | number a, missing => if a = 1 then number 1 else missing
  | missing, _ | _, missing => missing

/-- The arithmetic of the numbers, continued to infinite values and what is no number. -/
instance : Arith (Extended K) where
  zero := number 0
  one := number 1
  add := add
  sub a b := add a (neg b)
  mul := mul
  div := div
  neg := neg
  beq := equal
  lt := Below
  le a b := Below a b ∨ equal a b = true
  decLt := decidableBelow
  decLe a b := inferInstanceAs (Decidable (Below a b ∨ equal a b = true))
  max a b := @larger _ ⟨Below⟩ decidableBelow (· matches missing) a b
  min a b := @smaller _ ⟨Below⟩ decidableBelow (· matches missing) a b
  intCast n := number n
  ofScientific m up e := number (OfScientific.ofScientific m up e)
  abs := lift (fun a => number (Arith.abs a)) (infinite true) (infinite true)
  sign := lift (fun a => number (Arith.sign a)) (number (-1)) (number 1)
  sqrt := lift (fun a => if a < 0 then missing else number (Arith.sqrt a)) missing (infinite true)
  exp := lift (fun a => number (Arith.exp a)) (number 0) (infinite true)
  log := lift (fun a => if a < 0 then missing else if a = 0 then infinite false
    else number (Arith.log a)) missing (infinite true)
  sin := lift (fun a => number (Arith.sin a)) missing missing
  cos := lift (fun a => number (Arith.cos a)) missing missing
  tanh := lift (fun a => number (Arith.tanh a)) (number (-1)) (number 1)
  pow := power
  isFinite a := a matches number _
  isNaN a := a matches missing
  epsilon := number Arith.epsilon
  infinity := infinite true
  nan := missing

/-! ## Laws -/

section Laws

variable (a b : K) (p : Bool) (t : Extended K)

theorem zero_eq : (0 : Extended K) = number 0 := rfl

theorem one_eq : (1 : Extended K) = number 1 := rfl

theorem intCast_eq (n : Int) : (Int.cast n : Extended K) = number (n : K) := rfl

@[simp] theorem number_add_number : number a + number b = number (a + b) := rfl

@[simp] theorem number_mul_number : number a * number b = number (a * b) := rfl

@[simp] theorem infinite_mul_number : infinite p * number a = scale p a := rfl

@[simp] theorem number_mul_infinite : number a * infinite p = scale p a := rfl

@[simp] theorem missing_mul : missing * t = missing := by cases t <;> rfl

@[simp] theorem missing_add : missing + t = missing := by cases t <;> rfl

theorem scale_zero : scale p (0 : K) = missing := if_pos rfl

theorem scale_of_ne {a : K} (nonzero : a ≠ 0) : scale p a = infinite (p == decide (0 < a)) :=
  if_neg nonzero

theorem one_div_number_zero : number 1 / number 0 = (infinite true : Extended K) := by
  change (if (0 : K) = 0 then scale true 1 else number (1 / 0)) = _
  rw [if_pos rfl, scale_of_ne true one_ne_zero]
  simp

variable {b} in
theorem number_div_number (nonzero : b ≠ 0) : number a / number b = number (a / b) :=
  if_neg nonzero

protected theorem mul_comm (s t : Extended K) : s * t = t * s := by
  cases s with
  | missing => cases t <;> rfl
  | number a =>
    cases t with
    | number b => exact congrArg number (mul_comm a b)
    | infinite q => rfl
    | missing => rfl
  | infinite p =>
    cases t with
    | number b => rfl
    | infinite q => exact congrArg infinite Bool.beq_comm
    | missing => rfl

@[simp] protected theorem mul_one : t * number 1 = t := by
  cases t with
  | number a => exact congrArg number (mul_one a)
  | infinite p => simp [scale_of_ne]
  | missing => rfl

@[simp] protected theorem add_zero : t + number 0 = t := by
  cases t with
  | number a => exact congrArg number (add_zero a)
  | infinite p => rfl
  | missing => rfl

variable {a b} in
/-- The sign of a product of numbers. -/
theorem decide_mul_pos (left : a ≠ 0) (right : b ≠ 0) :
    decide (0 < a * b) = (decide (0 < a) == decide (0 < b)) := by
  rcases lt_or_gt_of_ne left with below | above <;>
    rcases lt_or_gt_of_ne right with under | beyond
  · simp [mul_pos_of_neg_of_neg below under, below.not_gt, under.not_gt]
  · simp [(mul_neg_of_neg_of_pos below beyond).not_gt, below.not_gt, beyond]
  · simp [(mul_neg_of_pos_of_neg above under).not_gt, above, under.not_gt]
  · simp [mul_pos above beyond, above, beyond]

/-- Numbers may be multiplied with each other first. -/
theorem mul_number_mul_number : t * number a * number b = t * number (a * b) := by
  cases t with
  | number c => exact congrArg number (mul_assoc c a b)
  | missing => rfl
  | infinite p =>
    by_cases left : a = 0
    · simp [left, scale_zero]
    · by_cases right : b = 0
      · simp [right, left, scale_zero, scale_of_ne]
      · have assoc : ∀ p q r : Bool, ((p == q) == r) = (p == (q == r)) := by decide
        rw [infinite_mul_number, infinite_mul_number, scale_of_ne p left, infinite_mul_number,
          scale_of_ne _ right, scale_of_ne p (mul_ne_zero left right), decide_mul_pos left right,
          assoc]

/-- Positive multiples of a value add up. -/
theorem mul_number_add_mul_number {c : K} (positive : 0 < c) :
    t * number a + t * number (c * a) = t * number ((1 + c) * a) := by
  cases t with
  | number b => exact congrArg number (by ring)
  | missing => rfl
  | infinite p =>
    have multiple {m : K} (above : 0 < m) : scale p (m * a) = scale p a := by
      simp only [scale, mul_eq_zero, above.ne', false_or, mul_pos_iff_of_pos_left above]
    have twice : scale p a + scale p a = scale p a := by
      by_cases zero : a = 0
      · rw [zero, scale_zero, missing_add]
      · rw [scale_of_ne p zero]
        exact if_pos rfl
    rw [infinite_mul_number, infinite_mul_number, infinite_mul_number, multiple positive,
      multiple (by positivity), twice]

end Laws

end Extended

end ImplicitDiff
