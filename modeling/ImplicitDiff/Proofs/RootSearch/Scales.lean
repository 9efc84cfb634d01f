import Mathlib.Tactic
import ImplicitDiff.Proofs.Dense.Vector
import ImplicitDiff.Proofs.RootSearch.Budget

/-! # Scales stay positive

The scales of a search come from the lengths of columns. A column of zeros gets the scale one, and
no scale shrinks later on, so in exact arithmetic all of them are positive in every iteration,
whatever the problem says.
-/

namespace ImplicitDiff.RootSearch

open Arith

variable {F : Type} [ExactOrderedField F] [ExactRoots F] {p : Problem F} {x columns : List F}
  {settings : Settings F} {s t : State F} {journal before after : Journal F}
  {given new : List (Rows F)} {n : Nat}

theorem columns_nonneg {a : Rows F} (square : a.IsSquare n)
    (measured : columnNorms a n = .ok columns) :
    columns.length = n ∧ ∀ d ∈ columns, 0 ≤ d := by
  cases (columnNorms_eq square).symm.trans measured
  refine ⟨by simp, ?_⟩
  rw [List.forall_mem_map]
  exact fun j _ => norm_nonneg _

theorem columnNorms_singleton (c : F) : columnNorms [[c]] 1 = .ok [|c|] := by
  rw [columnNorms_eq (isSquare_one c)]
  exact congrArg (fun d => Except.ok [d]) (norm_singleton c)

/-- The first scales are positive, because a column of zeros gets the scale one. -/
theorem units_start {jacobian : Rows F} (square : jacobian.IsSquare n)
    (measured : columnNorms jacobian n = .ok columns) (settings : Settings F)
    (point residual : List F) :
    Units (State.start settings point residual jacobian columns).scale n := by
  obtain ⟨many, nonneg⟩ := columns_nonneg square measured
  refine ⟨(List.length_map _).trans many, fun member => ?_⟩
  obtain ⟨d, listed, rfl⟩ := List.mem_map.mp member
  split_ifs with zero
  · exact one_pos
  · exact (nonneg d listed).lt_of_ne' fun same => zero (beq_iff_eq.mpr same)

omit [ExactRoots F] in
/-- Scales stay positive, because none of them shrinks. -/
theorem units_refresh {scale : List F} (units : Units scale n) (many : columns.length = n) :
    Units (scale.zipWith (fun d c => max d c) columns) n := by
  refine ⟨length_zipWith_eq units.length many, fun member => ?_⟩
  obtain ⟨i, bound, rfl⟩ := List.getElem_of_mem member
  rw [List.getElem_zipWith]
  exact lt_max_of_lt_left (units.pos (List.getElem_mem _))

theorem Moves.units (moves : Moves settings p s before new t after) (sized : s.Sized n)
    (square : ∀ jacobian ∈ new, jacobian.IsSquare n) (units : Units s.scale n) :
    Units t.scale n := by
  have kept (residual : List F) : (s.tried residual).scale = s.scale := State.scale_advance ..
  cases moves with
  | correct _ _ _ => rwa [State.scale_correct, kept]
  | @refresh residual columns _ _ _ tries _ _ _ _ measured =>
    obtain ⟨-, -, fits, -⟩ := tries
    rw [(sized.tried fits).point] at measured
    have many := (columns_nonneg (square _ List.mem_cons_self) measured).1
    change Units ((s.tried residual).scale.zipWith (fun d c => max d c) columns) n
    rw [kept]
    exact units_refresh units many

/-- As long as the problem gives square matrices, there is a positive scale for each unknown. -/
theorem Visited.units (visited : Visited settings p x journal given s before)
    (square : ∀ jacobian ∈ given, jacobian.IsSquare x.length) : Units s.scale x.length := by
  induction visited with
  | start _ _ _ _ _ _ measured => exact units_start (square _ List.mem_cons_self) measured ..
  | step visited moves ih =>
    obtain ⟨earlier, last⟩ := List.forall_mem_append.mp square
    exact moves.units (visited.sized earlier) last (ih earlier)

/-! ## Two unknowns -/

/-- The matrix that swaps two unknowns. -/
def swap : Rows ℝ := [[0, 1], [1, 0]]

theorem isSquare_swap : swap.IsSquare 2 := ⟨rfl, by simp [swap]⟩

theorem norm_pair {a b c : ℝ} (nonneg : 0 ≤ c) (square : c * c = a * a + b * b) :
    norm [a, b] = c :=
  norm_eq nonneg (square.trans (by simp [squares]))

theorem columnNorms_swap : columnNorms swap 2 = .ok [1, 1] := by
  have first : norm [(0 : ℝ), 1] = 1 := norm_pair one_pos.le (by norm_num)
  have second : norm [1, (0 : ℝ)] = 1 := norm_pair one_pos.le (by norm_num)
  rw [columnNorms_eq isSquare_swap]
  simp [swap, List.range_succ, first, second]

theorem solve?_swap (a b : ℝ) : swap.solve? [a, b] = some [b, a] := by
  have finite (c : ℝ) : isFinite c = true := rfl
  have unrounded : (epsilon : ℝ) = 0 := rfl
  norm_num [swap, Rows.solve?, Rows.factor?, largest, finite, unrounded, Arith.abs_eq,
    eliminateColumns, choosePivot, largerHead?, PartialRow.head, PartialRow.toFactored,
    PartialRow.eliminate, Factors.solve, Factors.forward, Factors.backward,
    Factors.subtractProducts]

theorem factor?_swap : swap.factor? ≠ none := by
  intro none
  have solved := solve?_swap 0 0
  rw [Rows.solve?, none] at solved
  cases solved

end ImplicitDiff.RootSearch
