import Mathlib.Tactic
import ImplicitDiff.Proofs.Dense.Lu
import ImplicitDiff.Proofs.Effects
import ImplicitDiff.RootSearch.Basic

/-! # The shape of a search

A search for `n` unknowns works on vectors of length `n` and on square matrices of that size.
Products pair entries off up to the shorter side, so a wrong length would go unnoticed; here it is
shown that no step of an iteration makes one.
-/

namespace ImplicitDiff

variable {F : Type}

/-- The matrix has `n` rows of `n` entries. -/
structure Rows.IsSquare (a : Rows F) (n : Nat) : Prop where
  length : a.length = n
  row {row : List F} : row ∈ a → row.length = n

variable [Arith F] {n : Nat}

@[simp] theorem length_addMultiple (factor : F) (sums row : List F) :
    (addMultiple factor sums row).length = sums.length := by
  fun_induction addMultiple factor sums row with
  | case1 s sums r row ih => rw [List.length_cons, ih, List.length_cons]
  | case2 => rfl

omit [Arith F] in
/-- Every round of a loop makes a list longer by `k`. -/
theorem length_foldl {ι : Type} {step : List F → ι → List F} {k : Nat}
    (each : ∀ i l, (step l i).length = l.length + k) (items : List ι) (l : List F) :
    (items.foldl step l).length = l.length + items.length * k := by
  induction items generalizing l with
  | nil => rw [List.foldl_nil, List.length_nil, Nat.zero_mul, Nat.add_zero]
  | cons i rest ih =>
    rw [List.foldl_cons, ih, each, List.length_cons, Nat.succ_mul, Nat.add_assoc,
      Nat.add_comm k]

theorem Rows.IsSquare.length_applyTranspose {a : Rows F} (square : a.IsSquare n) (w : List F) :
    (a.applyTranspose w).length = n := by
  have keeps (pair : List F × F) (sums : List F) :=
    length_addMultiple pair.2 sums pair.1
  refine (length_foldl (k := 0) keeps (a.zip w) _).trans ?_
  rw [Nat.mul_zero, Nat.add_zero, List.length_replicate]
  cases a with
  | nil => exact square.length
  | cons first rest => exact square.row List.mem_cons_self

theorem Factors.length_forward (factors : Factors F) (b : List F) :
    (factors.forward b).length = factors.length := by
  refine (length_foldl (k := 1) (fun r solved => List.length_append) factors []).trans ?_
  rw [List.length_nil, Nat.zero_add, Nat.mul_one]

theorem Factors.length_backward (factors : Factors F) (y : List F) :
    (factors.backward y).length = min factors.length y.length := by
  rw [Factors.backward, List.foldr_eq_foldl_reverse]
  refine (length_foldl (k := 1) (fun pair solved => rfl) _ []).trans ?_
  rw [List.length_nil, List.length_reverse, List.length_zip, Nat.zero_add, Nat.mul_one]

theorem Factors.length_solve (factors : Factors F) (b : List F) :
    (factors.solve b).length = factors.length := by
  rw [Factors.solve, length_backward, length_forward, Nat.min_self]

namespace LinearModel

/-- A model of `n` equations in `n` unknowns. -/
structure IsSquare (m : LinearModel F) (n : Nat) : Prop where
  jacobian : m.jacobian.IsSquare n
  scale : m.scale.length = n

variable {m : LinearModel F}

omit [Arith F] in
theorem IsSquare.congr (square : m.IsSquare n) {other : LinearModel F}
    (jacobian : other.jacobian = m.jacobian) (scale : other.scale = m.scale) :
    other.IsSquare n :=
  ⟨jacobian ▸ square.jacobian, scale ▸ square.scale⟩

theorem IsSquare.length_newtonStep {p : List F} (square : m.IsSquare n)
    (found : m.newtonStep? = some p) : p.length = n := by
  obtain ⟨factors, factored, rfl⟩ := Option.map_eq_some_iff.mp found
  rw [Factors.length_solve, Rows.factor?_length factored, square.jacobian.length]

theorem IsSquare.length_gradient (square : m.IsSquare n) : m.gradient.length = n := by
  rw [gradient, shrink, List.length_zipWith, square.jacobian.length_applyTranspose, square.scale,
    Nat.min_self]

theorem IsSquare.length_shrink (square : m.IsSquare n) {v : List F} (length : v.length = n) :
    (shrink m.scale v).length = n := by
  rw [shrink, List.length_zipWith, length, square.scale, Nat.min_self]

theorem length_descend (gradient : List F) (distance : F) :
    (descend gradient distance).length = gradient.length := List.length_map _

theorem IsSquare.length_descend_gradient (square : m.IsSquare n) (distance : F) :
    (descend m.gradient distance).length = n :=
  (length_descend ..).trans square.length_gradient

theorem length_crossing {near far : List F} (radius : F) (same : far.length = near.length) :
    (crossing radius near far).length = near.length := by
  simp [crossing, same]

theorem IsSquare.length_bentStep (square : m.IsSquare n) (radius : F) {target : Option (List F)}
    (length : ∀ z ∈ target, z.length = n) : (m.bentStep radius target).length = n := by
  have steep := square.length_descend_gradient
  unfold bentStep
  split_ifs with flat
  · cases target with
    | none => exact (List.length_map _).trans square.scale
    | some z => exact square.length_shrink ((List.length_map _).trans (length z rfl))
  · refine square.length_shrink ?_
    cases target with
    | none => exact steep _
    | some z =>
      dsimp only
      split_ifs with inside
      · exact (length_crossing _ ((length z rfl).trans (steep _).symm)).trans (steep _)
      · exact steep _

theorem IsSquare.length_dogleg (square : m.IsSquare n) (radius : F) :
    (m.dogleg radius).length = n := by
  unfold dogleg
  cases found : m.newtonStep? with
  | none => exact square.length_bentStep radius fun _ none => (nomatch none)
  | some p =>
    have length := square.length_newtonStep found
    dsimp only
    split_ifs with inside
    · exact length
    · refine square.length_bentStep radius ?_
      rintro z ⟨⟩
      rw [stretch, List.length_zipWith, length, square.scale, Nat.min_self]

end LinearModel

namespace RootSearch

theorem columnNorms_eq {a : Rows F} (square : a.IsSquare n) : columnNorms a n =
    .ok ((List.range n).map fun j => norm (a.map fun row => row.getD j 0)) := by
  refine mapM_eq_pure fun j inside => ?_
  have column : a.mapM (fun row => fetch row[j]?) =
      (pure (a.map fun row => row.getD j 0) : Except Fault (List F)) := by
    refine mapM_eq_pure fun row member => ?_
    have bound : j < row.length := square.row member ▸ List.mem_range.mp inside
    rw [List.getD_eq_getElem?_getD, List.getElem?_eq_getElem bound]
    rfl
  rw [column, pure_bind]

theorem isSquare_addOuter {a : Rows F} (square : a.IsSquare n) (w weights : List F) :
    (addOuter w a weights).IsSquare n := by
  have shape : (addOuter w a weights).map List.length = a.map List.length := by
    clear square
    fun_induction addOuter w a weights with
    | case1 row rows weight weights ih => simp [ih]
    | case2 => rfl
  constructor
  · rw [← square.length, ← List.length_map List.length, shape, List.length_map]
  · intro row member
    have listed := List.mem_map_of_mem (f := List.length) member
    rw [shape] at listed
    obtain ⟨original, known, same⟩ := List.mem_map.mp listed
    exact same.symm.trans (square.row known)

end RootSearch

end ImplicitDiff
