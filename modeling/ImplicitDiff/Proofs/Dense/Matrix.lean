import Mathlib.Data.Matrix.Mul
import Mathlib.Tactic
import ImplicitDiff.Dense.Basic

/-! # Lists as vectors and matrices

Vectors are lists and matrices lists of rows, of any shape. Here they are read as functions on a
range of places, and a missing entry as zero, so that laws of matrices can be stated of them.
-/

namespace ImplicitDiff

open scoped Matrix

variable {F : Type}

/-- The first `n` entries. -/
def vector [Zero F] (v : List F) (n : Nat) : Fin n → F := fun i => v.getD i 0

/-- The first `n` entries of the first `m` rows. -/
def Rows.matrix [Zero F] (a : Rows F) (m n : Nat) : Matrix (Fin m) (Fin n) F :=
  .of fun i j => (a.getD i []).getD j 0

@[simp] theorem vector_apply [Zero F] (v : List F) {n : Nat} (i : Fin n) :
    vector v n i = v.getD i 0 := rfl

/-- The rows of a table are its matrix. -/
theorem matrix_of_range [Zero F] (entry : Nat → Nat → F) (m n : Nat) :
    Rows.matrix ((List.range m).map fun i => (List.range n).map fun j => entry i j) m n =
      .of fun i j => entry i j := by
  ext i j
  simp [Rows.matrix, List.getD_eq_getElem?_getD]

/-- A sum over paired entries is a product of vectors; what lacks a partner counts for nothing. -/
theorem sum_zip_eq [CommRing F] {α : Type} (items : List α) (weights : List F) (g : α → F) {m : Nat}
    (length : items.length = m) :
    ((items.zip weights).map fun (a, w) => w * g a).sum =
      vector weights m ⬝ᵥ vector (items.map g) m := by
  subst length
  induction items generalizing weights with
  | nil => rfl
  | cons a items ih =>
    cases weights with
    | nil => simp [dotProduct]
    | cons w weights =>
      rw [List.zip_cons_cons, List.map_cons, List.sum_cons, ih weights, dotProduct, dotProduct,
        List.length_cons, Fin.sum_univ_succ]
      rfl

end ImplicitDiff
