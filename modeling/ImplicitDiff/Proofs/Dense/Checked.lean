import Mathlib.Tactic
import ImplicitDiff.Proofs.Dense.Elimination

/-! # Quotients by zero

A field gives quotients by zero a value, so a computation could make use of one unnoticed. A checked
number notices: a quotient by zero is missing, and so is all that is computed from what is missing.
A computation that gives the same numbers when its numbers are checked has no use for a quotient by
zero. Lengths never have, because a vector without a largest entry is left alone. Nor has an
elimination, whether it succeeds or not, since it gives up at a pivot that is too small.
-/

namespace ImplicitDiff

open Arith

variable {F : Type}

/-- A number, unless a quotient by zero entered into it. -/
inductive Checked (F : Type) where
  /-- What a quotient by zero entered into. -/
  | missing
  /-- A number. -/
  | number (a : F)

namespace Checked

/-- A function of a number. -/
def map (f : F → F) : Checked F → Checked F
  | missing => missing
  | number a => number (f a)

/-- A function of two numbers. -/
def map₂ (f : F → F → F) : Checked F → Checked F → Checked F
  | number a, number b => number (f a b)
  | _, _ => missing

/-- A comparison of two numbers. -/
def compares (holds : F → F → Prop) : Checked F → Checked F → Prop
  | number a, number b => holds a b
  | _, _ => False

instance (holds : F → F → Prop) [DecidableRel holds] : DecidableRel (compares holds)
  | missing, _ => inferInstanceAs (Decidable False)
  | number _, missing => inferInstanceAs (Decidable False)
  | number a, number b => inferInstanceAs (Decidable (holds a b))

variable [Arith F]

/-- The quotient of two numbers, missing if the second one is zero. -/
def divide : Checked F → Checked F → Checked F
  | number a, number b => if b == 0 then missing else number (a / b)
  | _, _ => missing

instance : Arith (Checked F) where
  zero := number 0
  one := number 1
  add := map₂ (· + ·)
  sub := map₂ (· - ·)
  mul := map₂ (· * ·)
  div := divide
  neg := map (- ·)
  beq
    | number a, number b => a == b
    | _, _ => false
  lt := compares (· < ·)
  le := compares (· ≤ ·)
  max := map₂ max
  min := map₂ min
  intCast n := number n
  ofScientific m s e := number (OfScientific.ofScientific m s e)
  decLt := inferInstanceAs (DecidableRel (compares (· < ·)))
  decLe := inferInstanceAs (DecidableRel (compares (· ≤ ·)))
  abs := map Arith.abs
  sign := map Arith.sign
  sqrt := map sqrt
  exp := map exp
  log := map log
  sin := map sin
  cos := map cos
  tanh := map tanh
  pow := map₂ pow
  isFinite
    | number a => isFinite a
    | missing => false
  isNaN
    | number a => isNaN a
    | missing => true
  epsilon := number epsilon
  infinity := number infinity
  nan := number nan

theorem number_div {b : F} (nonzero : (b == 0) = false) (a : F) :
    number a / number b = number (a / b) := by
  change (if b == 0 then missing else number (a / b)) = _
  rw [nonzero]
  rfl

@[simp] theorem number_lt (a b : F) : number a < number b ↔ a < b := Iff.rfl

@[simp] theorem number_le (a b : F) : number a ≤ number b ↔ a ≤ b := Iff.rfl

@[simp] theorem number_beq (a b : F) : (number a == number b) = (a == b) := rfl

@[simp] theorem number_min (a b : F) : min (number a) (number b) = number (min a b) := rfl

@[simp] theorem abs_number (a : F) : Arith.abs (number a) = number (Arith.abs a) := rfl

@[simp] theorem isFinite_number (a : F) : isFinite (number a) = isFinite a := rfl

@[simp] theorem number_zero : (0 : Checked F) = number 0 := rfl

end Checked

open Checked

section Products

variable [Arith F]

theorem largest_number (v : List F) : largest (v.map number) = number (largest v) := by
  rw [largest, List.foldl_map]
  exact List.foldl_hom number fun _ _ => rfl

/-- The length has no use for a quotient by zero. -/
theorem norm_number (v : List F) : norm (v.map number) = number (norm v) := by
  have numbers : (v.map number).any isNaN = v.any isNaN := by
    rw [List.any_map]
    rfl
  unfold norm
  rw [largest_number, numbers]
  dsimp only
  rw [isFinite_number, number_zero, number_beq]
  by_cases unusable : (largest v == 0 || !isFinite (largest v)) = true
  · rw [if_pos unusable, if_pos unusable]
    split_ifs <;> rfl
  · have nonzero : (largest v == 0) = false := by
      rw [Bool.or_eq_true, not_or] at unusable
      exact Bool.eq_false_iff.mpr unusable.1
    rw [if_neg unusable, if_neg unusable, List.foldl_map]
    have sum : v.foldl (fun sum x => let r := number x / number (largest v); sum + r * r)
        (number 0) = number (v.foldl (fun sum x => let r := x / largest v; sum + r * r) 0) := by
      refine List.foldl_hom number fun sum x => ?_
      dsimp only
      rw [number_div nonzero]
      rfl
    exact congrArg (fun sum => number (largest v) * sqrt sum) sum

theorem dot_number (u v : List F) : dot (u.map number) (v.map number) = number (dot u v) := by
  rw [dot, List.zip_map, List.foldl_map]
  exact List.foldl_hom number fun _ _ => rfl

/-- The matrix with checked entries. -/
def Rows.checked (a : Rows F) : Rows (Checked F) := a.map (List.map number)

theorem Rows.apply_number (a : Rows F) (v : List F) :
    a.checked.apply (v.map number) = (a.apply v).map number := by
  rw [apply, checked, List.map_map, apply, List.map_map]
  exact List.map_congr_left fun row _ => dot_number row v

private theorem addMultiple_number (c : F) (sums row : List F) :
    addMultiple (number c) (sums.map number) (row.map number) =
      (addMultiple c sums row).map number := by
  induction sums generalizing row with
  | nil => rfl
  | cons s sums ih =>
    cases row with
    | nil => rfl
    | cons r row => exact congrArg (number (s + r * c) :: ·) (ih row)

theorem Rows.applyTranspose_number (a : Rows F) (w : List F) :
    a.checked.applyTranspose (w.map number) = (a.applyTranspose w).map number := by
  have wide : (a.checked.head?.map List.length).getD 0 = (a.head?.map List.length).getD 0 := by
    cases a with
    | nil => rfl
    | cons row a => exact List.length_map _
  rw [applyTranspose, wide, checked, List.zip_map, List.foldl_map, applyTranspose]
  have zeros (n : Nat) : List.replicate n (0 : Checked F) = (List.replicate n 0).map number := by
    rw [List.map_replicate]
    rfl
  rw [zeros]
  exact List.foldl_hom (List.map number) fun _ _ => addMultiple_number ..

end Products

/-! ## Elimination with checked entries -/

section Rows

variable [Arith F]

/-- The row with checked entries. -/
def PartialRow.checked (r : PartialRow F) : PartialRow (Checked F) :=
  { source := r.source, multipliers := r.multipliers.map number, rest := r.rest.map number }

/-- The row of the factors with checked entries. -/
def FactoredRow.checked (r : FactoredRow F) : FactoredRow (Checked F) :=
  { source := r.source, lower := r.lower.map number, pivot := number r.pivot
    upper := r.upper.map number }

/-- The factors with checked entries. -/
def Factors.checked (factors : Factors F) : Factors (Checked F) := factors.map FactoredRow.checked

theorem PartialRow.head_checked (r : PartialRow F) : r.checked.head = number r.head := by
  rw [head, head, checked]
  cases r.rest <;> rfl

private theorem PartialRow.toFactored_checked (r : PartialRow F) :
    r.checked.toFactored = r.toFactored.checked := by
  rw [toFactored, toFactored, head_checked, FactoredRow.checked, checked]
  dsimp only
  rw [List.map_tail]

private theorem PartialRow.eliminate_checked {p : PartialRow F} (nonzero : (p.head == 0) = false)
    (r : PartialRow F) : p.checked.eliminate r.checked = (p.eliminate r).checked := by
  have factor : r.checked.head / p.checked.head = number (r.head / p.head) := by
    rw [head_checked, head_checked, number_div nonzero]
  rw [eliminate, eliminate, factor, checked, checked, checked, PartialRow.mk.injEq]
  dsimp only
  refine ⟨rfl, ?_, ?_⟩
  · rw [List.map_append, List.map_singleton]
  · rw [← List.map_tail, ← List.map_tail, List.zipWith_map, List.map_zipWith]
    rfl

private theorem largerHead?_checked (best : F) (place : Nat) (rows : List (PartialRow F)) :
    largerHead? (number best) place (rows.map PartialRow.checked) =
      (largerHead? best place rows).map fun (i, size) => (i, number size) := by
  induction rows generalizing best place with
  | nil => rfl
  | cons r rows ih =>
    rw [List.map_cons, largerHead?, largerHead?, PartialRow.head_checked]
    dsimp only
    simp only [abs_number, number_lt, ih]
    split_ifs with larger
    · cases largerHead? (Arith.abs r.head) (place + 1) rows <;> rfl
    · rfl

private theorem choosePivot_checked (first : PartialRow F) (rows : List (PartialRow F)) :
    choosePivot first.checked (rows.map PartialRow.checked) =
      let (pivot, size, others) := choosePivot first rows
      (pivot.checked, number size, others.map PartialRow.checked) := by
  rw [choosePivot, choosePivot, PartialRow.head_checked, abs_number, largerHead?_checked]
  cases largerHead? (Arith.abs first.head) 0 rows with
  | none => rfl
  | some found => simp [List.getD_eq_getElem?_getD, List.map_set]

theorem Factors.subtractProducts_number (start : F) (u v : List F) :
    subtractProducts (number start) (u.map number) (v.map number) =
      number (subtractProducts start u v) := by
  rw [subtractProducts, List.zip_map, List.foldl_map]
  exact List.foldl_hom number fun _ _ => rfl

private theorem Factors.forward_checked (factors : Factors F) (b : List F) :
    factors.checked.forward (b.map number) = (factors.forward b).map number := by
  rw [forward, checked, List.foldl_map, forward]
  change List.foldl _ (List.map number []) factors = _
  refine List.foldl_hom (List.map number) fun solved r => ?_
  have entry : (b.map number).getD r.source 0 = number (b.getD r.source 0) :=
    List.getD_map (d := 0) ..
  rw [FactoredRow.checked, entry, subtractProducts_number, List.map_append]
  rfl

/-- If no pivot is zero, back substitution has no use for a quotient by zero. -/
theorem Factors.backward_checked {factors : Factors F}
    (nonzero : ∀ r ∈ factors, (r.pivot == 0) = false) (y : List F) :
    factors.checked.backward (y.map number) = (factors.backward y).map number := by
  induction factors generalizing y with
  | nil => rfl
  | cons r factors ih =>
    cases y with
    | nil => rfl
    | cons x y =>
      obtain ⟨pivot, others⟩ := List.forall_mem_cons.mp nonzero
      have below := ih others y
      change subtractProducts (number x) (r.upper.map number)
        (backward (checked factors) (y.map number)) / number r.pivot ::
          backward (checked factors) (y.map number) = _
      rw [below, subtractProducts_number, number_div pivot]
      rfl

end Rows

section Factors

variable [ExactOrderedField F]

private theorem eliminateColumns_checked {tiny : F} (nonneg : 0 ≤ tiny) (columns : Nat)
    (rows : List (PartialRow F)) :
    eliminateColumns (number tiny) columns (rows.map PartialRow.checked) =
      (eliminateColumns tiny columns rows).map Factors.checked := by
  induction columns generalizing rows with
  | zero => rfl
  | succ columns ih =>
    cases rows with
    | nil => rfl
    | cons first rows =>
      rw [List.map_cons, eliminateColumns, eliminateColumns, choosePivot_checked]
      rcases chosen : choosePivot first rows with ⟨pivot, size, others⟩
      dsimp only
      simp only [number_le]
      split_ifs with vanishes
      · rfl
      · have nonzero : (pivot.head == 0) = false :=
          beq_eq_false_iff_ne.mpr (head_ne_zero nonneg chosen vanishes)
        have eliminated : (others.map PartialRow.checked).map pivot.checked.eliminate =
            (others.map pivot.eliminate).map PartialRow.checked := by
          rw [List.map_map, List.map_map]
          exact List.map_congr_left fun r _ => PartialRow.eliminate_checked nonzero r
        rw [eliminated, ih, Option.map_map, Option.map_map]
        refine congrArg (Option.map · _) (funext fun factors => ?_)
        exact congrArg (· :: _) pivot.toFactored_checked

/-- An elimination has no use for a quotient by zero. -/
theorem Rows.factor?_checked (nonneg : 0 ≤ (epsilon : F)) (a : Rows F) :
    a.checked.factor? = a.factor?.map Factors.checked := by
  have flat : a.checked.flatten = a.flatten.map number := (List.map_flatten ..).symm
  have rows : a.checked.partialRows = a.partialRows.map PartialRow.checked := by
    rw [partialRows, checked, List.zipIdx_map, partialRows, List.map_map, List.map_map]
    rfl
  have length : a.checked.length = a.length := List.length_map _
  rw [factor?_eq, factor?_eq, flat, largest_number, rows, length]
  change (if (!isFinite (largest a.flatten) || largest a.flatten == 0) = true then none else
    eliminateColumns (number _) _ _) = _
  split_ifs
  · rfl
  · exact eliminateColumns_checked (tiny_nonneg nonneg _ _) ..

/-- Nor have the substitutions. -/
theorem Rows.IsSquare.solve_checked {a : Rows F} {n : Nat} (square : a.IsSquare n)
    (nonneg : 0 ≤ (epsilon : F)) {factors : Factors F} (factored : a.factor? = some factors)
    (b : List F) : factors.checked.solve (b.map number) = (factors.solve b).map number := by
  have nonzero (r : FactoredRow F) (member : r ∈ factors) : (r.pivot == 0) = false :=
    beq_eq_false_iff_ne.mpr (square.pivot_ne_zero nonneg factored r member)
  rw [Factors.solve, Factors.forward_checked, Factors.backward_checked nonzero]
  rfl

theorem Rows.IsSquare.solve?_checked {a : Rows F} {n : Nat} (square : a.IsSquare n)
    (nonneg : 0 ≤ (epsilon : F)) (b : List F) :
    a.checked.solve? (b.map number) = (a.solve? b).map (List.map number) := by
  rw [Rows.solve?, Rows.factor?_checked nonneg, Rows.solve?]
  cases factored : a.factor? with
  | none => rfl
  | some factors => exact congrArg some (square.solve_checked nonneg factored b)

end Factors

end ImplicitDiff
