import Mathlib.Data.List.GetD
import Mathlib.Tactic
import ImplicitDiff.Dense.Lu

/-! # The shape of triangular factors

Elimination gives one factored row for each row of the matrix, so a solution has one row for each of
them too.
-/

namespace ImplicitDiff

variable {F : Type} [Arith F]

private theorem largerHead?_eq_some {best size : F} {start place : Nat} {rows : List (PartialRow F)}
    (found : largerHead? best start rows = some (place, size)) :
    ∃ k r, place = start + k ∧ rows[k]? = some r ∧ size = Arith.abs r.head := by
  induction rows generalizing best start with
  | nil => cases found
  | cons r rows ih =>
    have later {best : F} (found : largerHead? best (start + 1) rows = some (place, size)) :
        ∃ k s, place = start + k ∧ (r :: rows)[k]? = some s ∧ size = Arith.abs s.head := by
      obtain ⟨k, s, rfl, here, same⟩ := ih found
      exact ⟨k + 1, s, by omega, here, same⟩
    rw [largerHead?] at found
    split_ifs at found with larger
    · cases beaten : largerHead? (Arith.abs r.head) (start + 1) rows with
      | none =>
        rw [beaten] at found
        cases found
        exact ⟨0, r, rfl, rfl, rfl⟩
      | some other =>
        rw [beaten] at found
        cases found
        exact later beaten
    · exact later found

/-- The pivot row and the others are the rows that there were, and its head has the given size. -/
theorem choosePivot_spec {first pivot : PartialRow F} {rows others : List (PartialRow F)} {size : F}
    (chosen : choosePivot first rows = (pivot, size, others)) :
    (pivot :: others).Perm (first :: rows) ∧ size = Arith.abs pivot.head := by
  unfold choosePivot at chosen
  cases found : largerHead? (Arith.abs first.head) 0 rows with
  | none =>
    rw [found] at chosen
    cases chosen
    exact ⟨.refl _, rfl⟩
  | some other =>
    obtain ⟨place, size⟩ := other
    obtain ⟨k, r, rfl, here, rfl⟩ := largerHead?_eq_some found
    rw [found] at chosen
    cases chosen
    constructor
    · rw [List.getD_eq_getElem?_getD]
      exact List.getD_set_perm_cons ..
    · simp [List.getD_eq_getElem?_getD, here]

private theorem eliminateColumns_length {tiny : F} {columns : Nat} {rows : List (PartialRow F)}
    {factors : Factors F} (square : rows.length = columns)
    (found : eliminateColumns tiny columns rows = some factors) : factors.length = columns := by
  induction columns generalizing rows factors with
  | zero =>
    cases found
    rfl
  | succ columns ih =>
    obtain ⟨first, rows, rfl⟩ := List.exists_cons_of_length_eq_add_one square
    rw [eliminateColumns] at found
    rcases chosen : choosePivot first rows with ⟨pivot, size, others⟩
    rw [chosen] at found
    dsimp only at found
    split_ifs at found with vanishes
    obtain ⟨rest, below, rfl⟩ := Option.map_eq_some_iff.mp found
    have left : others.length = columns :=
      Nat.succ.inj ((choosePivot_spec chosen).1.length_eq.trans square)
    rw [List.length_cons, ih ((List.length_map _).trans left) below]

namespace Rows

theorem factor?_length {a : Rows F} {factors : Factors F} (found : a.factor? = some factors) :
    factors.length = a.length := by
  unfold factor? at found
  dsimp only at found
  split_ifs at found with vanishes
  exact eliminateColumns_length (by simp) found

end Rows

end ImplicitDiff
