import Mathlib.LinearAlgebra.Matrix.Block
import Mathlib.LinearAlgebra.Matrix.Nondegenerate
import Mathlib.LinearAlgebra.Matrix.ToLinearEquiv
import Mathlib.Tactic
import ImplicitDiff.Proofs.Dense.Checked
import ImplicitDiff.Proofs.Dense.Columns
import ImplicitDiff.Proofs.Dense.Vector

/-! # Triangular factors

The rows of a matrix, in the order in which elimination takes them as pivots, are a unit lower
triangular matrix times an upper triangular one. The multipliers are at most one in magnitude,
because a pivot is the largest of its candidates, and a matrix that has factors has a determinant
that is not zero. Conversely, if every pivot will do that is not zero, elimination only stops at a
column that is a combination of the columns before.
-/

namespace ImplicitDiff

open Arith
open scoped Matrix

variable {F : Type}

namespace Factors

variable [Arith F]

/-- The rows of the lower factor, up to the diagonal. -/
def lowerRows (factors : Factors F) : Rows F := factors.map fun r => r.lower ++ [1]

/-- The rows of the upper factor, which start with a zero for each of the `above` rows before. -/
def upperRows : Nat → Factors F → Rows F
  | _, [] => []
  | above, r :: factors =>
    (List.replicate above 0 ++ r.pivot :: r.upper) :: upperRows (above + 1) factors

private theorem length_upperRows (above : Nat) (factors : Factors F) :
    (factors.upperRows above).length = factors.length := by
  induction factors generalizing above with
  | nil => rfl
  | cons r factors ih => exact congrArg (· + 1) (ih (above + 1))

private theorem getElem?_upperRows (above i : Nat) (factors : Factors F) :
    (factors.upperRows above)[i]? =
      factors[i]?.map fun r => List.replicate (above + i) 0 ++ r.pivot :: r.upper := by
  induction factors generalizing above i with
  | nil => rfl
  | cons r factors ih =>
    cases i with
    | zero => rfl
    | succ i =>
      rw [upperRows, List.getElem?_cons_succ, List.getElem?_cons_succ, ih, Nat.succ_add_eq_add_succ]

end Factors

theorem getD_replicate_append [Zero F] (k j : Nat) (v : List F) :
    (List.replicate k 0 ++ v).getD j 0 = if j < k then 0 else v.getD (j - k) 0 := by
  rw [List.getD_eq_getElem?_getD, List.getElem?_append, List.length_replicate,
    List.getElem?_replicate]
  split_ifs <;> simp [List.getD_eq_getElem?_getD]

section Course

variable [Arith F] {tiny : F} {solved : Nat} {rows : List (PartialRow F)} {factors : Factors F}

/-- Each row of the factors comes from a row of its own. -/
theorem Eliminated.sources (course : Eliminated tiny solved rows factors) :
    (factors.map FactoredRow.source).Perm (rows.map PartialRow.source) := by
  induction course with
  | done => exact .refl _
  | @column _ _ pivot _ others _ _ chosen _ _ _ ih =>
    have kept : (others.map pivot.eliminate).map PartialRow.source =
        others.map PartialRow.source := by
      rw [List.map_map]
      rfl
    rw [kept] at ih
    exact (ih.cons pivot.source).trans ((choosePivot_spec chosen).1.map PartialRow.source)

omit [Arith F] in
private theorem Rows.sources_partialRows (a : Rows F) :
    a.partialRows.map PartialRow.source = List.range a.length := by
  rw [partialRows, List.map_map, List.range_eq_range']
  exact List.zipIdx_map_snd ..

/-- A row has a multiplier for each row above it. -/
theorem Eliminated.length_lower (course : Eliminated tiny solved rows factors) {i : Nat}
    {r : FactoredRow F} (here : factors[i]? = some r) : r.lower.length = solved + i := by
  induction course generalizing i with
  | done => cases here
  | @column solved _ pivot _ _ _ _ _ _ fits _ ih =>
    cases i with
    | zero =>
      cases here
      exact (fits pivot List.mem_cons_self).multipliers
    | succ i => rw [ih here, Nat.succ_add_eq_add_succ]

end Course

section Exact

variable [ExactOrderedField F] {tiny : F} {solved : Nat} {rows : List (PartialRow F)}
  {factors : Factors F}

/-! ## The product of the factors -/

/-- The row of the matrix that a row came from is what is left of it and the multiples that were
subtracted of the rows of the upper factor above. -/
def PartialRow.Restores (a above : Rows F) (r : PartialRow F) : Prop :=
  ∀ j, (a.getD r.source []).getD j 0 =
    dot r.multipliers (above.map (·.getD j 0)) +
      (List.replicate above.length 0 ++ r.rest).getD j 0

/-- An entry of a row is what elimination leaves of it and the multiple of the pivot row that it
subtracts. In the column of the pivot it leaves nothing. -/
theorem PartialRow.Fits.getD_rest {columns : Nat} {r p : PartialRow F}
    (fits : r.Fits (columns + 1) solved) (other : p.Fits (columns + 1) solved)
    (nonzero : p.head ≠ 0) (j : Nat) :
    r.rest.getD j 0 =
      r.head / p.head * p.rest.getD j 0 + (0 :: (p.eliminate r).rest).getD j 0 := by
  obtain ⟨c, u, here⟩ := List.exists_cons_of_length_eq_add_one fits.rest
  obtain ⟨d, w, there⟩ := List.exists_cons_of_length_eq_add_one other.rest
  have long : u.length = w.length := by
    have same := fits.rest.trans other.rest.symm
    rwa [here, there, List.length_cons, List.length_cons, Nat.add_right_cancel_iff] at same
  rw [PartialRow.head, there] at nonzero
  rw [PartialRow.eliminate, PartialRow.head, PartialRow.head, here, there]
  dsimp only [List.headD_cons, List.tail_cons] at nonzero ⊢
  cases j with
  | zero =>
    rw [List.getD_cons_zero, List.getD_cons_zero, List.getD_cons_zero, add_zero]
    exact (div_mul_cancel₀ c nonzero).symm
  | succ j =>
    rw [List.getD_cons_succ, List.getD_cons_succ, List.getD_cons_succ]
    simp only [List.getD_eq_getElem?_getD, List.getElem?_zipWith]
    by_cases inside : j < u.length
    · have within : j < w.length := long ▸ inside
      simp [inside, within]
    · have beyond : ¬j < w.length := long ▸ inside
      simp [inside, beyond]

theorem PartialRow.Restores.eliminate {a above : Rows F} {columns : Nat} {r p : PartialRow F}
    (restores : r.Restores a above) (fits : r.Fits (columns + 1) above.length)
    (other : p.Fits (columns + 1) above.length) (nonzero : p.head ≠ 0) :
    (p.eliminate r).Restores a (above ++ [List.replicate above.length 0 ++ p.rest]) := by
  intro j
  have same : r.multipliers.length = (above.map (·.getD j 0)).length := by
    rw [fits.multipliers, List.length_map]
  have split : (List.replicate above.length 0 ++ r.rest).getD j 0 =
      r.head / p.head * (List.replicate above.length 0 ++ p.rest).getD j 0 +
        (List.replicate above.length 0 ++ 0 :: (p.eliminate r).rest).getD j 0 := by
    rw [getD_replicate_append, getD_replicate_append, getD_replicate_append]
    split_ifs with before
    · rw [mul_zero, add_zero]
    · exact fits.getD_rest other nonzero _
  refine (restores j).trans ?_
  rw [split, List.map_append, List.length_append, ← add_assoc, List.length_singleton,
    List.replicate_succ', List.append_assoc]
  change _ = dot (r.multipliers ++ [r.head / p.head]) (_ ++ [_]) + _
  rw [dot_concat same]
  rfl

/-- Every row of the lower factor combines the rows of the upper one to the row of the matrix that
it came from. -/
theorem Eliminated.restores (nonneg : 0 ≤ tiny) (course : Eliminated tiny solved rows factors)
    {a above : Rows F} (size : above.length = solved) (kept : ∀ r ∈ rows, r.Restores a above)
    {i : Nat} {r : FactoredRow F} (here : factors[i]? = some r) (j : Nat) :
    (a.getD r.source []).getD j 0 =
      dot (r.lower ++ [1]) ((above ++ factors.upperRows solved).map (·.getD j 0)) := by
  induction course generalizing above i with
  | done => cases here
  | @column solved first pivot rows others size' factors chosen large fits _ ih =>
    subst size
    have nonzero := head_ne_zero nonneg chosen large
    have same := (choosePivot_spec chosen).1
    have own := fits pivot List.mem_cons_self
    have rest : pivot.head :: pivot.rest.tail = pivot.rest := by
      obtain ⟨c, rest, found⟩ := List.exists_cons_of_length_eq_add_one own.rest
      rw [PartialRow.head, found]
      rfl
    have upper : Factors.upperRows above.length (pivot.toFactored :: factors) =
        (List.replicate above.length 0 ++ pivot.rest) :: factors.upperRows (above.length + 1) := by
      rw [← rest]
      rfl
    rw [upper]
    cases i with
    | zero =>
      cases here
      have long : pivot.multipliers.length = (above.map (·.getD j 0)).length := by
        rw [own.multipliers, List.length_map]
      rw [List.map_append, List.map_cons]
      change _ = dot (pivot.multipliers ++ [1]) (_ ++ _ :: _)
      rw [dot_append long, dot_cons, dot_nil, one_mul, add_zero]
      exact kept pivot (same.mem_iff.mp List.mem_cons_self) j
    | succ i =>
      rw [List.append_cons above]
      refine ih ?_ ?_ here
      · simp
      · rw [List.forall_mem_map]
        intro r member
        have listed := List.mem_cons_of_mem pivot member
        exact (kept r (same.mem_iff.mp listed)).eliminate (fits r listed) own nonzero

/-! ## The size of the multipliers -/

/-- No head is larger in magnitude than the largest one that was found. -/
theorem le_largerHead? (best : F) (place : Nat) (rows : List (PartialRow F)) :
    best ≤ (largerHead? best place rows).elim best Prod.snd ∧
      ∀ r ∈ rows, Arith.abs r.head ≤ (largerHead? best place rows).elim best Prod.snd := by
  induction rows generalizing best place with
  | nil => exact ⟨le_rfl, fun _ none => (nomatch none)⟩
  | cons r rows ih =>
    rw [largerHead?, List.forall_mem_cons]
    split_ifs with larger
    · obtain ⟨least, others⟩ := ih (Arith.abs r.head) (place + 1)
      cases beaten : largerHead? (Arith.abs r.head) (place + 1) rows with
      | none =>
        rw [beaten] at others
        exact ⟨larger.le, le_rfl, others⟩
      | some other =>
        rw [beaten] at least others
        exact ⟨larger.le.trans least, least, others⟩
    · obtain ⟨least, others⟩ := ih best (place + 1)
      exact ⟨least, (not_lt.mp larger).trans least, others⟩

/-- The head of the pivot row is the largest one. -/
theorem head_le_of_choosePivot {first pivot : PartialRow F} {others : List (PartialRow F)}
    {size : F} (chosen : choosePivot first rows = (pivot, size, others)) :
    ∀ r ∈ first :: rows, |r.head| ≤ |pivot.head| := by
  have largest : size = (largerHead? (Arith.abs first.head) 0 rows).elim (Arith.abs first.head)
      Prod.snd := by
    rw [choosePivot] at chosen
    cases found : largerHead? (Arith.abs first.head) 0 rows with
    | none =>
      rw [found] at chosen
      exact (congrArg (·.2.1) chosen).symm
    | some other =>
      rw [found] at chosen
      exact (congrArg (·.2.1) chosen).symm
  obtain ⟨least, others⟩ := le_largerHead? (Arith.abs first.head) 0 rows
  rw [← largest, (choosePivot_spec chosen).2] at least others
  simp only [Arith.abs_eq] at least others
  exact List.forall_mem_cons.mpr ⟨least, others⟩

/-- Multipliers are quotients by the largest head. -/
theorem Eliminated.abs_lower_le (course : Eliminated tiny solved rows factors)
    (bounded : ∀ r ∈ rows, ∀ c ∈ r.multipliers, |c| ≤ 1) :
    ∀ r ∈ factors, ∀ c ∈ r.lower, |c| ≤ 1 := by
  induction course with
  | done => exact fun _ none => (nomatch none)
  | @column _ first pivot rows others _ _ chosen _ _ _ ih =>
    have same := (choosePivot_spec chosen).1
    have all (r : PartialRow F) (member : r ∈ pivot :: others) := same.mem_iff.mp member
    refine List.forall_mem_cons.mpr ⟨bounded pivot (all pivot List.mem_cons_self), ih ?_⟩
    rw [List.forall_mem_map]
    intro r member
    have listed := all r (List.mem_cons_of_mem _ member)
    have quotient : |r.head / pivot.head| ≤ 1 := by
      rw [abs_div]
      exact div_le_one_of_le₀ (head_le_of_choosePivot chosen r listed) (abs_nonneg _)
    exact List.forall_mem_append.mpr ⟨bounded r listed, List.forall_mem_singleton.mpr quotient⟩

/-! ## Factors as matrices -/

namespace Factors

/-- The lower factor. -/
def lowerMatrix (factors : Factors F) (n : Nat) : Matrix (Fin n) (Fin n) F :=
  factors.lowerRows.matrix n n

/-- The upper factor. -/
def upperMatrix (factors : Factors F) (n : Nat) : Matrix (Fin n) (Fin n) F :=
  (factors.upperRows 0).matrix n n

variable {n : Nat} {r : FactoredRow F} {i : Fin n}

theorem lowerMatrix_apply (here : factors[(i : Nat)]? = some r) (j : Fin n) :
    factors.lowerMatrix n i j = (r.lower ++ [1]).getD j 0 := by
  have row : factors.lowerRows.getD i [] = r.lower ++ [1] := by
    rw [List.getD_eq_getElem?_getD, lowerRows, List.getElem?_map, here]
    rfl
  rw [lowerMatrix, Rows.matrix, Matrix.of_apply, row]

theorem upperMatrix_apply (here : factors[(i : Nat)]? = some r) (j : Fin n) :
    factors.upperMatrix n i j =
      if (j : Nat) < i then 0 else (r.pivot :: r.upper).getD ((j : Nat) - i) 0 := by
  have row : (factors.upperRows 0).getD i [] = List.replicate i 0 ++ r.pivot :: r.upper := by
    rw [List.getD_eq_getElem?_getD, getElem?_upperRows, here, zero_add]
    rfl
  rw [upperMatrix, Rows.matrix, Matrix.of_apply, row, getD_replicate_append]

/-- Entries of the product combine entries of the upper factor. -/
theorem lowerMatrix_mul_upperMatrix (length : factors.length = n)
    (here : factors[(i : Nat)]? = some r) (j : Fin n) :
    (factors.lowerMatrix n * factors.upperMatrix n) i j =
      dot (r.lower ++ [1]) ((factors.upperRows 0).map (·.getD j 0)) := by
  have column : ((factors.upperRows 0).map (·.getD (j : Nat) 0)).length = n := by
    rw [List.length_map, length_upperRows, length]
  rw [dot_comm, dot_eq_dotProduct column, dotProduct_comm, Matrix.mul_apply']
  congr 1
  · funext k
    exact lowerMatrix_apply here k
  · funext k
    exact (List.getD_map (factors.upperRows 0) [] (·.getD (j : Nat) 0)).symm

end Factors

/-- A rearrangement of the numbers below `n` is a permutation of them. -/
theorem exists_perm_of_perm_range {l : List Nat} {n : Nat} (rearranged : l.Perm (List.range n)) :
    ∃ σ : Equiv.Perm (Fin n), l = List.ofFn fun i => (σ i : Nat) := by
  have length : l.length = n := rearranged.length_eq.trans List.length_range
  subst length
  have below (i : Fin l.length) : l[i] < l.length :=
    List.mem_range.mp (rearranged.mem_iff.mp (List.getElem_mem i.isLt))
  have distinct : l.Nodup := rearranged.nodup_iff.mpr List.nodup_range
  let place (i : Fin l.length) : Fin l.length := ⟨l[i], below i⟩
  have injective : Function.Injective place := fun i j same =>
    Fin.ext ((distinct.getElem_inj_iff).mp (congrArg Fin.val same))
  refine ⟨Equiv.ofBijective place (Finite.injective_iff_bijective.mp injective), ?_⟩
  exact List.ofFn_getElem.symm

/-- What the factors of an `n × n` matrix say of it: with its rows in their order it is the product
of the two. The lower factor has units on the diagonal and no entry larger than one in magnitude,
and the pivots exceed the bound for rounding errors. -/
structure Factors.Decompose (factors : Factors F) (a : Rows F) {n : Nat}
    (order : Equiv.Perm (Fin n)) : Prop where
  sources : factors.map FactoredRow.source = List.ofFn fun i => (order i : Nat)
  product : (a.matrix n n).submatrix order id = factors.lowerMatrix n * factors.upperMatrix n
  lower : (factors.lowerMatrix n).IsLowerTriangular
  upper : (factors.upperMatrix n).IsUpperTriangular
  unit (i : Fin n) : factors.lowerMatrix n i i = 1
  bounded (i j : Fin n) : |factors.lowerMatrix n i j| ≤ 1
  pivot (i j k : Fin n) : epsilon * n * |a.matrix n n j k| < |factors.upperMatrix n i i|

private theorem Rows.restores_partialRows (a : Rows F) : ∀ r ∈ a.partialRows, r.Restores a [] := by
  rw [partialRows, List.forall_mem_map]
  rintro ⟨row, i⟩ member j
  have here : a[i]? = some row := List.mem_zipIdx_iff_getElem?.mp member
  simp [List.getD_eq_getElem?_getD, here]

private theorem Rows.IsSquare.abs_matrix_le {a : Rows F} {n : Nat} (square : a.IsSquare n)
    (i j : Fin n) : |a.matrix n n i j| ≤ largest a.flatten := by
  have inside : (i : Nat) < a.length := square.length ▸ i.isLt
  have within : (j : Nat) < (a[(i : Nat)]).length := by
    rw [square.row (List.getElem_mem inside)]
    exact j.isLt
  have entry : a.matrix n n i j = a[(i : Nat)][(j : Nat)] := by simp [matrix, inside, within]
  rw [entry]
  exact abs_le_largest (List.mem_flatten.mpr ⟨_, List.getElem_mem inside, List.getElem_mem within⟩)

/-- Factors of a square matrix decompose it. -/
theorem Rows.IsSquare.decompose {a : Rows F} {n : Nat} (square : a.IsSquare n)
    (nonneg : 0 ≤ (epsilon : F)) (factored : a.factor? = some factors) :
    ∃ order : Equiv.Perm (Fin n), factors.Decompose a order := by
  obtain ⟨-, -, course⟩ := square.eliminated factored
  have length : factors.length = n := (factor?_length factored).trans square.length
  have sources : (factors.map FactoredRow.source).Perm (List.range n) := by
    rw [← square.length, ← a.sources_partialRows]
    exact course.sources
  obtain ⟨order, known⟩ := exists_perm_of_perm_range sources
  -- All parts are read off row by row.
  have row (i : Fin n) : ∃ r, r ∈ factors ∧ factors[(i : Nat)]? = some r ∧ r.source = order i ∧
      r.lower.length = i := by
    have inside : (i : Nat) < factors.length := length ▸ i.isLt
    have here := List.getElem?_eq_getElem inside
    have source := congrArg (·[(i : Nat)]?) known
    refine ⟨factors[(i : Nat)], List.getElem_mem inside, here, ?_,
      (course.length_lower here).trans (zero_add _)⟩
    simpa [inside] using source
  refine ⟨order, known, ?_, ?_, ?_, ?_, ?_, ?_⟩
  · ext i j
    obtain ⟨r, -, here, source, -⟩ := row i
    rw [Factors.lowerMatrix_mul_upperMatrix length here, ← List.nil_append (factors.upperRows 0),
      ← course.restores (tiny_nonneg nonneg n _) rfl a.restores_partialRows here, source]
    rfl
  · intro i j above
    obtain ⟨r, -, here, -, width⟩ := row i
    have before : (i : Nat) < j := OrderDual.toDual_lt_toDual.mp above
    rw [Factors.lowerMatrix_apply here]
    exact List.getD_eq_default _ _ (by simp [width]; omega)
  · intro i j below
    obtain ⟨r, -, here, -, -⟩ := row i
    have before : (j : Nat) < i := below
    rw [Factors.upperMatrix_apply here, if_pos before]
  · intro i
    obtain ⟨r, -, here, -, width⟩ := row i
    rw [Factors.lowerMatrix_apply here, ← width, List.getD_append_right _ _ _ _ le_rfl,
      Nat.sub_self]
    rfl
  · intro i j
    obtain ⟨r, member, here, -, -⟩ := row i
    have blank : ∀ r ∈ a.partialRows, ∀ c ∈ r.multipliers, |c| ≤ 1 := by
      rw [partialRows, List.forall_mem_map]
      intro _ _ c none
      cases none
    have small : ∀ c ∈ r.lower ++ [1], |c| ≤ 1 := List.forall_mem_append.mpr
      ⟨course.abs_lower_le blank r member, List.forall_mem_singleton.mpr abs_one.le⟩
    rw [Factors.lowerMatrix_apply here, List.getD_eq_getElem?_getD]
    cases found : (r.lower ++ [1])[(j : Nat)]? with
    | none => simp
    | some c => exact small c (List.mem_of_getElem? found)
  · intro i j k
    obtain ⟨r, member, here, -, -⟩ := row i
    have large := square.tiny_lt_pivot factored r member
    rw [Factors.upperMatrix_apply here, if_neg (lt_irrefl _), Nat.sub_self, List.getD_cons_zero]
    refine lt_of_le_of_lt ?_ large
    rw [Int.cast_natCast]
    exact mul_le_mul_of_nonneg_left (square.abs_matrix_le j k)
      (mul_nonneg nonneg (Nat.cast_nonneg n))

/-- A matrix with factors is not singular: up to sign its determinant is the product of the pivots.
-/
theorem Factors.Decompose.det_ne_zero {a : Rows F} {n : Nat} {order : Equiv.Perm (Fin n)}
    (decompose : factors.Decompose a order) (nonneg : 0 ≤ (epsilon : F)) :
    (a.matrix n n).det ≠ 0 := by
  intro singular
  have product := congrArg Matrix.det decompose.product
  rw [Matrix.det_permute, singular, mul_zero, Matrix.det_mul,
    Matrix.det_of_isLowerTriangular _ decompose.lower,
    Matrix.det_of_isUpperTriangular decompose.upper, Finset.prod_congr rfl fun i _ =>
      decompose.unit i, Finset.prod_const_one, one_mul, eq_comm, Finset.prod_eq_zero_iff] at product
  obtain ⟨i, -, zero⟩ := product
  have large := decompose.pivot i i i
  rw [zero, abs_zero] at large
  exact large.not_ge (mul_nonneg (mul_nonneg nonneg (Nat.cast_nonneg n)) (abs_nonneg _))

/-! ## Matrices without factors -/

/-- A singular matrix has no factors. -/
theorem Rows.IsSquare.factor?_eq_none {a : Rows F} {n : Nat} (square : a.IsSquare n)
    (nonneg : 0 ≤ (epsilon : F)) (singular : (a.matrix n n).det = 0) : a.factor? = none := by
  by_contra factored
  obtain ⟨factors, found⟩ := Option.ne_none_iff_exists'.mp factored
  obtain ⟨order, decompose⟩ := square.decompose nonneg found
  exact decompose.det_ne_zero nonneg singular

theorem dot_zeros (v : List F) (n : Nat) : dot v (List.replicate n 0) = 0 := by
  induction v generalizing n with
  | nil => rfl
  | cons c v ih =>
    cases n with
    | zero => rfl
    | succ n => rw [List.replicate_succ, dot_cons, ih, mul_zero, add_zero]

/-- If every pivot will do that is not zero, elimination only gets stuck on rows that have a common
solution besides zero of the equations without a right-hand side. -/
theorem exists_kernel_of_eq_none {columns : Nat}
    (stuck : eliminateColumns 0 columns rows = none) (square : rows.length = columns)
    (fits : ∀ r ∈ rows, r.Fits columns solved) :
    ∃ x : List F, x.length = columns ∧ (∃ c ∈ x, c ≠ 0) ∧ ∀ r ∈ rows, dot r.rest x = 0 := by
  induction columns generalizing solved rows with
  | zero => cases stuck
  | succ columns ih =>
    obtain ⟨first, rows, rfl⟩ := List.exists_cons_of_length_eq_add_one square
    rw [eliminateColumns] at stuck
    rcases chosen : choosePivot first rows with ⟨pivot, size, others⟩
    rw [chosen] at stuck
    dsimp only at stuck
    obtain ⟨same, rfl⟩ := choosePivot_spec chosen
    split_ifs at stuck with vanishes
    · refine ⟨1 :: List.replicate columns 0, by simp, ⟨1, List.mem_cons_self, one_ne_zero⟩, ?_⟩
      intro r member
      have flat : r.head = 0 := by
        have most := head_le_of_choosePivot chosen r member
        rw [Arith.abs_eq] at vanishes
        exact abs_nonpos_iff.mp (most.trans vanishes)
      rw [(fits r member).dot_eq, flat, zero_mul, zero_add, dot_zeros]
    · have nonzero := head_ne_zero le_rfl chosen vanishes
      have all (r : PartialRow F) (member : r ∈ pivot :: others) : r.Fits (columns + 1) solved :=
        fits r (same.mem_iff.mp member)
      have own := all pivot List.mem_cons_self
      have left : (others.map pivot.eliminate).length = columns := by
        rw [List.length_map]
        exact Nat.succ.inj (same.length_eq.trans square)
      have shapes : ∀ r ∈ others.map pivot.eliminate, r.Fits columns (solved + 1) := by
        rw [List.forall_mem_map]
        exact fun r member => (all r (List.mem_cons_of_mem _ member)).eliminate own
      obtain ⟨x, long, ⟨c, listed, moves⟩, zero⟩ := ih (Option.map_eq_none_iff.mp stuck) left shapes
      rw [List.forall_mem_map] at zero
      have solved : dot pivot.rest (-dot pivot.rest.tail x / pivot.head :: x) = 0 := by
        rw [own.dot_eq, mul_div_cancel₀ _ nonzero, neg_add_cancel]
      refine ⟨-dot pivot.rest.tail x / pivot.head :: x, congrArg (· + 1) long,
        ⟨c, List.mem_cons_of_mem _ listed, moves⟩, fun r member => ?_⟩
      rcases List.mem_cons.mp (same.mem_iff.mpr member) with rfl | other
      · exact solved
      · have below := zero r other
        rwa [(all r (List.mem_cons_of_mem _ other)).dot_eliminate own nonzero, solved, mul_zero,
          sub_zero] at below

/-- Without a bound for rounding errors, only a singular matrix has no factors. -/
theorem Rows.IsSquare.det_eq_zero {a : Rows F} {n : Nat} (square : a.IsSquare n) (some : 0 < n)
    (finite : ∀ c : F, isFinite c = true) (unrounded : (epsilon : F) = 0)
    (stuck : a.factor? = none) : (a.matrix n n).det = 0 := by
  suffices ∃ x : List F, x.length = n ∧ (∃ c ∈ x, c ≠ 0) ∧ ∀ row ∈ a, dot row x = 0 by
    obtain ⟨x, long, ⟨c, listed, moves⟩, zero⟩ := this
    refine Matrix.exists_mulVec_eq_zero_iff.mp ⟨vector x n, fun none => moves ?_, ?_⟩
    · obtain ⟨i, inside, rfl⟩ := List.getElem_of_mem listed
      have entry := congrFun none ⟨i, long ▸ inside⟩
      simpa [inside] using entry
    · have nothing : a.apply x = List.replicate n 0 := by
        rw [apply, ← square.length, List.eq_replicate_iff, List.length_map, List.forall_mem_map]
        exact ⟨rfl, zero⟩
      rw [← vector_apply_rows square, nothing]
      funext i
      simp
  rw [factor?_eq, finite, unrounded, zero_mul, zero_mul, square.length] at stuck
  split_ifs at stuck with blank
  · rw [Bool.not_true, Bool.false_or, beq_iff_eq, largest_eq_zero_iff, List.forall_mem_flatten]
      at blank
    refine ⟨List.replicate n 1, List.length_replicate, ⟨1, by simp [some.ne'], one_ne_zero⟩, ?_⟩
    intro row member
    rw [dot_comm, List.eq_replicate_iff.mpr ⟨rfl, blank row member⟩, dot_zeros]
  · obtain ⟨x, long, moves, zero⟩ := exists_kernel_of_eq_none stuck
      (by simp [partialRows, square.length]) square.fits_partialRows
    refine ⟨x, long, moves, fun row member => ?_⟩
    obtain ⟨r, known, rfl⟩ := Rows.exists_mem_partialRows member
    exact zero r known

/-! ## Solutions as vectors and matrices -/

theorem Rows.IsSquare.length_solve {a : Rows F} {n : Nat} (square : a.IsSquare n)
    (factored : a.factor? = some factors) (b : List F) : (factors.solve b).length = n :=
  (Factors.length_solve ..).trans ((factor?_length factored).trans square.length)

/-- The substitutions give the only solution. -/
theorem Rows.IsSquare.mulVec_eq_iff {a : Rows F} {n : Nat} (square : a.IsSquare n)
    (nonneg : 0 ≤ (epsilon : F)) (factored : a.factor? = some factors) {b : List F}
    (length : b.length = n) (x : Fin n → F) :
    a.matrix n n *ᵥ x = vector b n ↔ x = vector (factors.solve b) n := by
  have long := square.length_solve factored b
  have given : vector (List.ofFn x) n = x := by
    funext i
    simp
  have solves := square.apply_eq_iff nonneg factored (x := List.ofFn x) length List.length_ofFn
  constructor
  · intro equal
    rw [← given, ← vector_apply_rows square] at equal
    have applied := vector_injective (square.length_apply _) length equal
    rw [← given, solves.mp applied]
  · intro same
    have listed := vector_injective List.length_ofFn long (given.trans same)
    rw [← given, ← vector_apply_rows square, solves.mpr listed]

/-- So do the solutions for the columns of a right-hand side, side by side. -/
theorem Rows.IsSquare.mul_eq_iff {a : Rows F} {n : Nat} (square : a.IsSquare n)
    (nonneg : 0 ≤ (epsilon : F)) (factored : a.factor? = some factors) (b : Rows F) {k : Nat}
    (x : Matrix (Fin n) (Fin k) F) :
    a.matrix n n * x = b.matrix n k ↔ x = (factors.solutions b k).matrix n k := by
  have length : factors.length = n := (factor?_length factored).trans square.length
  have column (j : Nat) : vector (b.columnAt n j) n = fun i : Fin n => (b.getD i []).getD j 0 := by
    funext i
    simp [columnAt]
  have solutions : (factors.solutions b k).matrix n k =
      .of fun i j => (factors.solve (b.columnAt n j)).getD i 0 := by
    rw [Factors.solutions, length, matrix_of_range]
  rw [solutions, ← Matrix.ext_iff, ← Matrix.ext_iff, forall_comm, forall_comm (α := Fin n)]
  refine forall_congr' fun j => ?_
  have solves := square.mulVec_eq_iff nonneg factored (b := b.columnAt n j) (by simp [columnAt])
    fun i => x i j
  rwa [column, funext_iff, funext_iff] at solves

/-- **Elimination with partial pivoting factors a matrix.** If there are factors, they multiply to
the matrix with its rows in another order, and the substitutions give the only solution for every
right-hand side. A singular matrix has none, and without a bound for rounding errors every other
one has. Neither the elimination nor the substitutions use a quotient by zero. -/
theorem Rows.IsSquare.triangular_factors {a : Rows F} {n : Nat} (square : a.IsSquare n)
    (nonneg : 0 ≤ (epsilon : F)) :
    (∀ factors, a.factor? = some factors →
      (∃ order : Equiv.Perm (Fin n), factors.Decompose a order) ∧
      ∀ b : List F, b.length = n → (factors.solve b).length = n ∧
        ∀ x : Fin n → F, a.matrix n n *ᵥ x = vector b n ↔ x = vector (factors.solve b) n) ∧
    ((a.matrix n n).det = 0 → a.factor? = none) ∧
    ((∀ c : F, isFinite c = true) → (epsilon : F) = 0 → 0 < n → (a.matrix n n).det ≠ 0 →
      ∃ factors, a.factor? = some factors) ∧
    a.checked.factor? = a.factor?.map Factors.checked ∧
    ∀ factors, a.factor? = some factors → ∀ b : List F,
      factors.checked.solve (b.map .number) = (factors.solve b).map .number := by
  refine ⟨fun factors factored => ⟨square.decompose nonneg factored, fun b length =>
      ⟨square.length_solve factored b, square.mulVec_eq_iff nonneg factored length⟩⟩,
    fun singular => square.factor?_eq_none nonneg singular,
    fun finite unrounded some regular => ?_, a.factor?_checked nonneg,
    fun factors factored => square.solve_checked nonneg factored⟩
  by_contra stuck
  refine regular (square.det_eq_zero some finite unrounded ?_)
  exact Option.eq_none_iff_forall_ne_some.mpr fun factors found => stuck ⟨factors, found⟩

end Exact

/-- The equations `2 y = 4` and `x + 3 y = 5`, whose rows have to be swapped. -/
theorem triangular_factors_of_swap : ∃ factors : Factors ℚ,
    Rows.factor? [[0, 2], [1, 3]] = some factors ∧
    (∃ order : Equiv.Perm (Fin 2), factors.Decompose [[0, 2], [1, 3]] order) ∧
    ∀ x : Fin 2 → ℚ, Rows.matrix [[0, 2], [1, 3]] 2 2 *ᵥ x = vector [4, 5] 2 ↔
      x = vector [-1, 2] 2 := by
  have square : Rows.IsSquare ([[0, 2], [1, 3]] : Rows ℚ) 2 := ⟨rfl, by simp⟩
  have solved : Rows.solve? ([[0, 2], [1, 3]] : Rows ℚ) [4, 5] = some [-1, 2] := by decide +kernel
  obtain ⟨factors, factored, same⟩ := Option.map_eq_some_iff.mp solved
  obtain ⟨given, -⟩ := square.triangular_factors le_rfl
  obtain ⟨decompose, solves⟩ := given factors factored
  refine ⟨factors, factored, decompose, ?_⟩
  rw [← same]
  exact (solves [4, 5] rfl).2

end ImplicitDiff
