import Mathlib.Algebra.Order.BigOperators.Ring.Finset
import Mathlib.LinearAlgebra.Matrix.DotProduct
import Mathlib.Tactic
import ImplicitDiff.Proofs.Dense.Matrix
import ImplicitDiff.Proofs.Dense.Norm
import ImplicitDiff.Proofs.Dense.Scaling

/-! # Vectors of one length

Lists of one length are read as functions on a range of places. Products of vectors and of matrices
are those of linear algebra then, and the length of a vector is the Euclidean one, with the
inequalities that it obeys.
-/

namespace ImplicitDiff

open scoped Matrix

variable {F : Type}

section Entries

variable [Zero F] {n : Nat} {u v : List F}

theorem vector_injective (first : u.length = n) (second : v.length = n)
    (same : vector u n = vector v n) : u = v := by
  apply List.ext_getElem (first.trans second.symm)
  intro i inside other
  have entry := congrFun same ⟨i, first ▸ inside⟩
  simpa [vector, inside, other] using entry

theorem vector_map (f : F → F) (length : v.length = n) :
    vector (v.map f) n = fun i => f (vector v n i) := by
  funext i
  have inside : i.val < v.length := length ▸ i.isLt
  simp [vector, List.getD_eq_getElem?_getD, inside]

theorem vector_zipWith (f : F → F → F) (first : u.length = n) (second : v.length = n) :
    vector (u.zipWith f v) n = fun i => f (vector u n i) (vector v n i) := by
  funext i
  have inside : i.val < u.length := first ▸ i.isLt
  have other : i.val < v.length := second ▸ i.isLt
  simp [vector, List.getD_eq_getElem?_getD, inside, other]

end Entries

section Products

variable [ExactField F] {n : Nat} {a : Rows F} {u v w : List F}

theorem dot_eq_dotProduct (length : u.length = n) (v : List F) :
    dot u v = vector u n ⬝ᵥ vector v n := by
  have product := sum_zip_eq u v id length
  rw [List.map_id, dotProduct_comm] at product
  rw [dot_eq_sum, ← product]
  exact congrArg List.sum (List.map_congr_left fun pair _ => mul_comm pair.1 pair.2)

theorem squares_eq_dotProduct (length : v.length = n) :
    squares v = vector v n ⬝ᵥ vector v n := by
  rw [← dot_eq_dotProduct length, dot_eq_sum, squares]
  congr 1
  apply List.ext_getElem
  · simp
  · simp

/-- The matrix times a vector. -/
theorem vector_apply_rows (square : a.IsSquare n) (v : List F) :
    vector (a.apply v) n = a.matrix n n *ᵥ vector v n := by
  funext i
  have inside : i.val < a.length := square.length ▸ i.isLt
  have row : (a[i.val]).length = n := square.row (List.getElem_mem inside)
  have entries : vector a[i.val] n = fun j => Rows.matrix a n n i j := by
    funext j
    simp [vector, Rows.matrix, inside]
  rw [Matrix.mulVec, ← entries, ← dot_eq_dotProduct row]
  simp [vector, Rows.apply, inside]

theorem addMultiple_eq_zipWith (c : F) (same : u.length = v.length) :
    addMultiple c u v = u.zipWith (fun s r => s + r * c) v := by
  induction u generalizing v with
  | nil => rfl
  | cons s u ih =>
    obtain ⟨r, v, rfl⟩ := List.exists_cons_of_length_eq_add_one same.symm
    rw [addMultiple, ih (Nat.succ.inj same), List.zipWith_cons_cons]

/-- An entry of a sum of multiples of rows. -/
theorem vector_foldl_addMultiple {pairs : List (List F × F)} {sums : List F}
    (wide : ∀ pair ∈ pairs, pair.1.length = n) (length : sums.length = n) (j : Fin n) :
    vector (pairs.foldl (fun sums pair => addMultiple pair.2 sums pair.1) sums) n j =
      vector sums n j + (pairs.map fun pair => pair.2 * pair.1.getD j 0).sum := by
  induction pairs generalizing sums with
  | nil => simp
  | cons pair pairs ih =>
    obtain ⟨row, c⟩ := pair
    obtain ⟨first, rest⟩ := List.forall_mem_cons.mp wide
    dsimp only at first
    rw [List.foldl_cons, ih rest ((length_addMultiple ..).trans length),
      addMultiple_eq_zipWith c (length.trans first.symm), vector_zipWith _ length first,
      List.map_cons, List.sum_cons, ← add_assoc]
    exact congrArg (vector sums n j + · + _) (mul_comm ..)

/-- A row of weights times the matrix. -/
theorem vector_applyTranspose (square : a.IsSquare n) (w : List F) :
    vector (a.applyTranspose w) n = vector w n ᵥ* a.matrix n n := by
  have rows : ∀ pair ∈ a.zip w, pair.1.length = n := fun pair member =>
    square.row (List.of_mem_zip member).1
  funext j
  have column : vector (a.map fun row => row.getD j 0) n = fun i => Rows.matrix a n n i j := by
    funext i
    have inside : i.val < a.length := square.length ▸ i.isLt
    simp [Rows.matrix, List.getD_eq_getElem?_getD, inside]
  have sum := sum_zip_eq a w (fun row => row.getD j 0) square.length
  rw [column] at sum
  rw [square.applyTranspose_eq, vector_foldl_addMultiple rows List.length_replicate]
  refine (congrArg (vector (List.replicate n 0) n j + ·) sum).trans ?_
  simp [Matrix.vecMul]

end Products

section Scales

variable [ExactField F] {n : Nat} {scale v : List F}

theorem vector_stretch (units : scale.length = n) (length : v.length = n) :
    vector (stretch scale v) n = fun i => vector scale n i * vector v n i :=
  vector_zipWith (fun x d => d * x) length units

theorem vector_shrink (units : scale.length = n) (length : v.length = n) :
    vector (shrink scale v) n = fun i => vector v n i / vector scale n i :=
  vector_zipWith (fun z d => z / d) length units

end Scales

section Magnitude

variable [ExactOrderedField F] {n : Nat} {u v : Fin n → F}

theorem dotProduct_self_nonneg (u : Fin n → F) : 0 ≤ u ⬝ᵥ u :=
  Finset.sum_nonneg fun i _ => mul_self_nonneg (u i)

/-- The Euclidean length. -/
def magnitude (u : Fin n → F) : F := Arith.sqrt (u ⬝ᵥ u)

theorem magnitude_neg (u : Fin n → F) : magnitude (-u) = magnitude u := by
  rw [magnitude, neg_dotProduct_neg, magnitude]

variable [ExactRoots F]

theorem magnitude_nonneg (u : Fin n → F) : 0 ≤ magnitude u :=
  ExactRoots.sqrt_nonneg (dotProduct_self_nonneg u)

theorem magnitude_mul_self (u : Fin n → F) : magnitude u * magnitude u = u ⬝ᵥ u :=
  ExactRoots.sqrt_mul_self (dotProduct_self_nonneg u)

/-- The length is the only number that is not negative and has the right square. -/
theorem magnitude_eq {a : F} (nonneg : 0 ≤ a) (square : a * a = u ⬝ᵥ u) : magnitude u = a :=
  ExactRoots.sqrt_eq nonneg square

theorem norm_eq_magnitude {v : List F} (length : v.length = n) : norm v = magnitude (vector v n) :=
  norm_eq (magnitude_nonneg _) ((magnitude_mul_self _).trans (squares_eq_dotProduct length).symm)

theorem magnitude_eq_zero_iff : magnitude u = 0 ↔ u = 0 := by
  rw [← mul_self_eq_zero, magnitude_mul_self, dotProduct_self_eq_zero]

theorem magnitude_le_iff : magnitude u ≤ magnitude v ↔ u ⬝ᵥ u ≤ v ⬝ᵥ v := by
  rw [mul_self_le_mul_self_iff (magnitude_nonneg u) (magnitude_nonneg v), magnitude_mul_self,
    magnitude_mul_self]

/-- The inequality of Cauchy and Schwarz. -/
theorem dotProduct_le (u v : Fin n → F) : u ⬝ᵥ v ≤ magnitude u * magnitude v := by
  have bound := Finset.sum_mul_sq_le_sq_mul_sq Finset.univ u v
  simp only [sq] at bound
  refine nonneg_le_nonneg_of_sq_le_sq (mul_nonneg (magnitude_nonneg u) (magnitude_nonneg v)) ?_
  rw [mul_mul_mul_comm, magnitude_mul_self, magnitude_mul_self]
  exact bound

theorem magnitude_smul {c : F} (nonneg : 0 ≤ c) (u : Fin n → F) :
    magnitude (c • u) = c * magnitude u := by
  refine magnitude_eq (mul_nonneg nonneg (magnitude_nonneg u)) ?_
  rw [mul_mul_mul_comm, magnitude_mul_self, smul_dotProduct, dotProduct_smul, smul_eq_mul,
    smul_eq_mul, mul_assoc]

/-- The triangle inequality. -/
theorem magnitude_add_le (u v : Fin n → F) : magnitude (u + v) ≤ magnitude u + magnitude v := by
  refine nonneg_le_nonneg_of_sq_le_sq (add_nonneg (magnitude_nonneg u) (magnitude_nonneg v)) ?_
  have product := dotProduct_le u v
  rw [magnitude_mul_self, add_dotProduct, dotProduct_add, dotProduct_add, dotProduct_comm v u,
    ← magnitude_mul_self u, ← magnitude_mul_self v]
  linarith

end Magnitude

end ImplicitDiff
