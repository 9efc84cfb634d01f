import Mathlib.Tactic
import ImplicitDiff.Proofs.Dense.Columns
import ImplicitDiff.Proofs.Dense.Elimination
import ImplicitDiff.Proofs.SpecialValues

/-! # Matrices with entries that are not finite

An infinite entry makes the scale of a matrix infinite, and such a matrix has no factors. An entry
that is no number is passed over by the scale, and no pivot is refused because of it. It stays in
the rows that are left, because eliminating one of them keeps what is no number in it or in the
pivot row, so the last pivot is no number. From there back substitution spreads it to all unknowns.
-/

namespace ImplicitDiff

open Arith

variable {F : Type} [Arith F] [SpecialValues F]

/-! ## Infinite entries -/

/-- The largest magnitude is infinite as soon as one is, and stays so. -/
theorem infinite_largest {v : List F} {c : F} (member : c ∈ v) (infinite : IsInfinite c) :
    IsInfinite (largest v) ∧ 0 < largest v := by
  obtain ⟨before, after, rfl⟩ := List.append_of_mem member
  have stays (start : F) (top : IsInfinite start ∧ 0 < start) (v : List F) :
      IsInfinite (v.foldl (fun m x => max m (Arith.abs x)) start) ∧
        0 < v.foldl (fun m x => max m (Arith.abs x)) start := by
    induction v generalizing start with
    | nil => exact top
    | cons x v ih => exact ih _ (SpecialValues.infinite_max (.inl top))
  rw [largest, List.foldl_append, List.foldl_cons]
  exact stays _ (SpecialValues.infinite_max (.inr (SpecialValues.infinite_abs infinite))) after

theorem Rows.factor?_of_infinite {a : Rows F} {c : F} (member : c ∈ a.flatten)
    (infinite : IsInfinite c) : a.factor? = none := by
  rw [factor?_eq, (infinite_largest member infinite).1.1]
  rfl

/-! ## Entries that are no numbers -/

section Spread

variable {columns solved : Nat} {r p : PartialRow F}

/-- Eliminating a row keeps what is no number in it or in the pivot row, if a column is left. -/
theorem PartialRow.Fits.exists_isNaN (fits : r.Fits (columns + 1) solved)
    (other : p.Fits (columns + 1) solved) (left : 0 < columns)
    (spoiled : (∃ c ∈ r.rest, isNaN c = true) ∨ ∃ c ∈ p.rest, isNaN c = true) :
    ∃ c ∈ (p.eliminate r).rest, isNaN c = true := by
  obtain ⟨g, u, here⟩ := List.exists_cons_of_length_eq_add_one fits.rest
  obtain ⟨h, w, there⟩ := List.exists_cons_of_length_eq_add_one other.rest
  have long : u.length = columns := by simpa [here] using fits.rest
  have wide : w.length = columns := by simpa [there] using other.rest
  have rest : (p.eliminate r).rest = u.zipWith (fun a b => a - g / h * b) w := by
    simp only [PartialRow.eliminate, PartialRow.head, here, there]
    rfl
  have entry {i : Nat} (inside : i < columns)
      (missing : isNaN (u[i] - g / h * w[i]) = true) :
      ∃ c ∈ (p.eliminate r).rest, isNaN c = true := by
    have within : i < (u.zipWith (fun a b => a - g / h * b) w).length := by
      simp [long, wide, inside]
    rw [rest]
    exact ⟨_, List.getElem_mem within, by rwa [List.getElem_zipWith]⟩
  have factor (missing : isNaN g = true ∨ isNaN h = true) :
      ∃ c ∈ (p.eliminate r).rest, isNaN c = true :=
    entry left (SpecialValues.isNaN_sub (.inr
      (SpecialValues.isNaN_mul (.inl (SpecialValues.isNaN_div missing)))))
  rw [here, there] at spoiled
  rcases spoiled with ⟨c, member, missing⟩ | ⟨c, member, missing⟩
  · rcases List.mem_cons.mp member with rfl | below
    · exact factor (.inl missing)
    · obtain ⟨i, inside, rfl⟩ := List.getElem_of_mem below
      exact entry (long ▸ inside) (SpecialValues.isNaN_sub (.inl missing))
  · rcases List.mem_cons.mp member with rfl | below
    · exact factor (.inr missing)
    · obtain ⟨i, inside, rfl⟩ := List.getElem_of_mem below
      exact entry (wide ▸ inside) (SpecialValues.isNaN_sub (.inr
        (SpecialValues.isNaN_mul (.inr missing))))

/-- A difference of products keeps what is no number at the start or in the first product. -/
theorem Factors.isNaN_subtractProducts {u v : List F} {start : F} (some : u ≠ []) (other : v ≠ [])
    (missing : ∀ c ∈ v, isNaN c = true) : isNaN (subtractProducts start u v) = true := by
  have stays (pairs : List (F × F)) (start : F) (spoiled : isNaN start = true) :
      isNaN (pairs.foldl (fun rest pair => rest - pair.1 * pair.2) start) = true := by
    induction pairs generalizing start with
    | nil => exact spoiled
    | cons pair pairs ih => exact ih _ (SpecialValues.isNaN_sub (.inl spoiled))
  obtain ⟨c, u, rfl⟩ := List.exists_cons_of_ne_nil some
  obtain ⟨x, v, rfl⟩ := List.exists_cons_of_ne_nil other
  refine stays (u.zip v) _ (SpecialValues.isNaN_sub (.inr (SpecialValues.isNaN_mul (.inr ?_))))
  exact missing x List.mem_cons_self

/-- **What is no number spreads.** If some entry of the rows that are left is no number, neither is
the last pivot, nor any unknown after back substitution. -/
theorem Eliminated.spoils {tiny : F} {rows : List (PartialRow F)} {factors : Factors F}
    (course : Eliminated tiny solved rows factors)
    (spoiled : ∃ r ∈ rows, ∃ c ∈ r.rest, isNaN c = true) :
    (∃ before last, factors = before ++ [last] ∧ isNaN last.pivot = true) ∧
      ∀ y, y.length = factors.length → ∀ c ∈ factors.backward y, isNaN c = true := by
  induction course with
  | done =>
    obtain ⟨r, none, -⟩ := spoiled
    cases none
  | @column solved first pivot rows others size factors chosen _ fits course ih =>
    have same := (choosePivot_spec chosen).1
    have own := fits pivot List.mem_cons_self
    have asMany : factors.length = others.length := course.length_eq.trans (List.length_map _)
    have width : pivot.toFactored.upper.length = others.length := by
      simp [PartialRow.toFactored, own.rest]
    obtain ⟨r, member, entry⟩ := spoiled
    rw [← same.mem_iff] at member
    rcases Nat.eq_zero_or_pos others.length with done | left
    · -- The last row is the pivot row, and all that is left of it is the pivot.
      obtain rfl := List.length_eq_zero_iff.mp done
      obtain rfl := List.length_eq_zero_iff.mp asMany
      obtain rfl := List.mem_singleton.mp member
      obtain ⟨g, rest⟩ := List.length_eq_one_iff.mp own.rest
      have pivot : isNaN r.toFactored.pivot = true := by
        obtain ⟨c, listed, missing⟩ := entry
        rw [rest, List.mem_singleton] at listed
        simpa [PartialRow.toFactored, PartialRow.head, rest, ← listed] using missing
      refine ⟨⟨[], r.toFactored, rfl, pivot⟩, fun y length => ?_⟩
      obtain ⟨x, rfl⟩ := List.length_eq_one_iff.mp length
      change ∀ c ∈ [Factors.subtractProducts x r.toFactored.upper [] / r.toFactored.pivot], _
      exact List.forall_mem_singleton.mpr (SpecialValues.isNaN_div (.inr pivot))
    · have spread : ∃ s ∈ others.map pivot.eliminate, ∃ c ∈ s.rest, isNaN c = true := by
        rcases List.mem_cons.mp member with rfl | other
        · obtain ⟨s, listed⟩ := List.exists_mem_of_length_pos left
          exact ⟨_, List.mem_map_of_mem listed,
            (fits s (List.mem_cons_of_mem _ listed)).exists_isNaN own left (.inr entry)⟩
        · exact ⟨_, List.mem_map_of_mem other,
            (fits r (List.mem_cons_of_mem _ other)).exists_isNaN own left (.inl entry)⟩
      obtain ⟨⟨before, last, rfl, pivots⟩, below⟩ := ih spread
      refine ⟨⟨pivot.toFactored :: before, last, rfl, pivots⟩, fun y length => ?_⟩
      obtain ⟨x, y, rfl⟩ := List.exists_cons_of_length_eq_add_one length
      have missing := below y (Nat.succ.inj length)
      have some : pivot.toFactored.upper ≠ [] := List.ne_nil_of_length_pos (width.symm ▸ left)
      have solved : Factors.backward (before ++ [last]) y ≠ [] := by
        refine List.ne_nil_of_length_pos ?_
        rw [Factors.length_backward, Nat.succ.inj length, Nat.min_self, asMany]
        exact left
      change ∀ c ∈ Factors.subtractProducts x pivot.toFactored.upper
        (Factors.backward (before ++ [last]) y) / pivot.toFactored.pivot ::
          Factors.backward (before ++ [last]) y, _
      refine List.forall_mem_cons.mpr ⟨SpecialValues.isNaN_div (.inl ?_), missing⟩
      exact Factors.isNaN_subtractProducts some solved missing

omit [SpecialValues F] in
/-- An entry of the solutions for several columns is one of the solution for a column. -/
theorem Factors.exists_mem_solve {factors : Factors F} {b : Rows F} {width : Nat} {row : List F}
    (member : row ∈ factors.solutions b width) {c : F} (entry : c ∈ row) :
    ∃ v, c ∈ factors.solve v := by
  obtain ⟨i, below, rfl⟩ := List.mem_map.mp member
  obtain ⟨j, -, rfl⟩ := List.mem_map.mp entry
  have inside : i < (factors.solve (b.columnAt factors.length j)).length :=
    (factors.length_solve _).symm ▸ List.mem_range.mp below
  exact ⟨_, List.getD_eq_getElem _ _ inside ▸ List.getElem_mem inside⟩

/-- If a matrix with an entry that is no number has factors, the last pivot is no number, and
neither is any unknown of any solution. -/
theorem Rows.IsSquare.spoils {a : Rows F} {n : Nat} (square : a.IsSquare n) {c : F}
    (member : c ∈ a.flatten) (missing : isNaN c = true) {factors : Factors F}
    (factored : a.factor? = some factors) :
    (∃ before last, factors = before ++ [last] ∧ isNaN last.pivot = true) ∧
      ∀ b, ∀ x ∈ factors.solve b, isNaN x = true := by
  obtain ⟨row, listed, entry⟩ := List.mem_flatten.mp member
  obtain ⟨r, known, rfl⟩ := Rows.exists_mem_partialRows listed
  have spoiled : ∃ r ∈ a.partialRows, ∃ c ∈ r.rest, isNaN c = true := ⟨r, known, c, entry, missing⟩
  obtain ⟨last, below⟩ := (square.eliminated factored).2.2.spoils spoiled
  exact ⟨last, fun b => below _ (factors.length_forward b)⟩

end Spread

end ImplicitDiff
