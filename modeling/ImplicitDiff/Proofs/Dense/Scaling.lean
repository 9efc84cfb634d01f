import Mathlib.Tactic
import ImplicitDiff.Proofs.Dense.Elimination
import ImplicitDiff.Proofs.RootSearch.Shape

/-! # Columns scaled by positive numbers

If each unknown is measured in a unit of its own, the columns of a matrix are multiplied by the
units and the entries of a solution divided by them. Products do not notice. Elimination takes the
same pivots, because heads in one column are multiplied by one positive number, so the multipliers
are the same and the solutions differ by the units alone.
-/

namespace ImplicitDiff

open Arith

variable {F : Type}

theorem length_zipWith_eq {α β γ : Type} {f : α → β → γ} {u : List α} {v : List β} {n : Nat}
    (first : u.length = n) (second : v.length = n) : (u.zipWith f v).length = n := by
  rw [List.length_zipWith, first, second, Nat.min_self]

section Entries

variable [Arith F] {e u v : List F}

@[simp] theorem length_stretch (e v : List F) :
    (stretch e v).length = min v.length e.length := List.length_zipWith

@[simp] theorem length_shrink (e v : List F) :
    (shrink e v).length = min v.length e.length := List.length_zipWith

@[simp] theorem stretch_cons (c x : F) (e v : List F) :
    stretch (c :: e) (x :: v) = c * x :: stretch e v := rfl

@[simp] theorem shrink_cons (c x : F) (e v : List F) :
    shrink (c :: e) (x :: v) = x / c :: shrink e v := rfl

@[simp] theorem stretch_nil (e : List F) : stretch e [] = [] := rfl

@[simp] theorem shrink_nil (e : List F) : shrink e [] = [] := rfl

theorem Rows.IsSquare.length_apply {a : Rows F} {n : Nat} (square : a.IsSquare n) (v : List F) :
    (a.apply v).length = n :=
  (List.length_map _).trans square.length

/-- The weighted sum of the rows, as wide as they are. -/
theorem Rows.IsSquare.applyTranspose_eq {a : Rows F} {n : Nat} (square : a.IsSquare n)
    (w : List F) :
    a.applyTranspose w =
      (a.zip w).foldl (fun sums pair => addMultiple pair.2 sums pair.1) (List.replicate n 0) := by
  have wide : (a.head?.map List.length).getD 0 = n := by
    cases a with
    | nil => exact square.length
    | cons row a => exact square.row List.mem_cons_self
  rw [applyTranspose, wide]

end Entries

/-- Units for `n` unknowns, each a positive number. -/
structure Units [Zero F] [LT F] (e : List F) (n : Nat) : Prop where
  length : e.length = n
  pos {c : F} : c ∈ e → 0 < c

section Products

variable [ExactOrderedField F] {e u v : List F} {n : Nat}

namespace Units

theorem ne_zero (units : Units e n) {i : Nat} (inside : i < e.length) : e[i] ≠ 0 :=
  (units.pos (List.getElem_mem inside)).ne'

theorem tail {c : F} (units : Units (c :: e) (n + 1)) : Units e n :=
  ⟨Nat.succ.inj units.length, fun member => units.pos (List.mem_cons_of_mem _ member)⟩

private theorem head_pos {c : F} (units : Units (c :: e) n) : 0 < c := units.pos List.mem_cons_self

theorem length_stretch_eq (units : Units e n) (length : v.length = n) :
    (stretch e v).length = n := length_zipWith_eq length units.length

theorem length_shrink_eq (units : Units e n) (length : v.length = n) :
    (shrink e v).length = n := length_zipWith_eq length units.length

theorem shrink_stretch (units : Units e n) (short : v.length ≤ n) :
    shrink e (stretch e v) = v := by
  rw [← units.length] at short
  apply List.ext_getElem
  · simp [short]
  · intro i _ inside
    simp only [stretch, shrink, List.getElem_zipWith]
    exact mul_div_cancel_left₀ _ (units.ne_zero (inside.trans_le short))

theorem stretch_shrink (units : Units e n) (short : v.length ≤ n) :
    stretch e (shrink e v) = v := by
  rw [← units.length] at short
  apply List.ext_getElem
  · simp [short]
  · intro i _ inside
    simp only [stretch, shrink, List.getElem_zipWith]
    exact mul_div_cancel₀ _ (units.ne_zero (inside.trans_le short))

theorem stretch_ne_zero (units : Units e n) (nonzero : ∀ x ∈ v, x ≠ 0) :
    ∀ x ∈ stretch e v, x ≠ 0 := by
  simp only [List.forall_mem_iff_getElem, stretch, List.getElem_zipWith] at nonzero ⊢
  intro i inside
  rw [List.length_zipWith] at inside
  exact mul_ne_zero (units.ne_zero (by omega)) (nonzero i (by omega))

theorem forall_stretch_eq_zero_iff (units : Units e n) (short : v.length ≤ n) :
    (∀ x ∈ stretch e v, x = 0) ↔ ∀ x ∈ v, x = 0 := by
  rw [← units.length] at short
  simp only [List.forall_mem_iff_getElem]
  constructor
  · intro zero i inside
    have product := zero i (by simpa using ⟨inside, inside.trans_le short⟩)
    simp only [stretch, List.getElem_zipWith] at product
    exact (mul_eq_zero.mp product).resolve_left (units.ne_zero (inside.trans_le short))
  · intro zero i inside
    rw [length_stretch] at inside
    simp only [stretch, List.getElem_zipWith]
    rw [zero i (by omega), mul_zero]

/-- What one factor gains in a product, the other loses. -/
theorem dot_stretch_shrink (units : Units e n) (short : v.length ≤ n) (u : List F) :
    dot (stretch e u) (shrink e v) = dot u v := by
  rw [← units.length] at short
  have products : List.zipWith (· * ·) (stretch e u) (shrink e v) = List.zipWith (· * ·) u v := by
    apply List.ext_getElem
    · simp only [List.length_zipWith, length_stretch, length_shrink]
      omega
    · intro i _ inside
      simp only [stretch, shrink, List.getElem_zipWith]
      rw [List.length_zipWith] at inside
      have nonzero := units.ne_zero (i := i) (by omega)
      field_simp
  rw [dot_eq_sum, dot_eq_sum, List.map_zip_eq_zipWith, List.map_zip_eq_zipWith]
  exact congrArg List.sum products

end Units

/-- Units of units. -/
theorem stretch_stretch (e d v : List F) : stretch (stretch e d) v = stretch d (stretch e v) := by
  apply List.ext_getElem
  · simp [Nat.min_comm, Nat.min_left_comm]
  · intro i _ _
    simp only [stretch, List.getElem_zipWith]
    ring

theorem shrink_by_stretch (e d v : List F) : shrink (stretch e d) v = shrink d (shrink e v) := by
  apply List.ext_getElem
  · simp [Nat.min_comm, Nat.min_left_comm]
  · intro i _ _
    simp only [stretch, shrink, List.getElem_zipWith]
    rw [div_div, mul_comm]

theorem shrink_comm (e d v : List F) : shrink e (shrink d v) = shrink d (shrink e v) := by
  apply List.ext_getElem
  · simp [Nat.min_comm, Nat.min_left_comm]
  · intro i _ _
    simp only [shrink, List.getElem_zipWith]
    rw [div_right_comm]

end Products

section Matrices

variable [ExactOrderedField F] {e v w : List F} {n : Nat} {a : Rows F}

/-- The matrix with each column multiplied by its unit. -/
def Rows.scaleColumns (e : List F) (a : Rows F) : Rows F := a.map (stretch e)

theorem Rows.IsSquare.scaleColumns (square : a.IsSquare n) (units : Units e n) :
    (a.scaleColumns e).IsSquare n := by
  refine ⟨(List.length_map _).trans square.length, ?_⟩
  intro row member
  obtain ⟨original, listed, rfl⟩ := List.mem_map.mp member
  exact units.length_stretch_eq (square.row listed)

/-- The matrix with scaled columns sees a solution in the units as the matrix sees the solution. -/
theorem Units.apply_scaleColumns (units : Units e n) (short : v.length ≤ n) (a : Rows F) :
    (a.scaleColumns e).apply (shrink e v) = a.apply v := by
  rw [Rows.apply, Rows.scaleColumns, List.map_map]
  exact List.map_congr_left fun row _ => units.dot_stretch_shrink short row

theorem addMultiple_stretch (factor : F) (e v w : List F) :
    addMultiple factor (stretch e v) (stretch e w) = stretch e (addMultiple factor v w) := by
  induction v generalizing e w with
  | nil => rfl
  | cons x v ih =>
    cases e with
    | nil => simp [stretch, addMultiple]
    | cons c e =>
      cases w with
      | nil => rfl
      | cons y w =>
        simp only [stretch_cons, addMultiple, ih]
        congr 1
        ring

theorem Rows.IsSquare.applyTranspose_scaleColumns (square : a.IsSquare n) (units : Units e n)
    (w : List F) : (a.scaleColumns e).applyTranspose w = stretch e (a.applyTranspose w) := by
  have sums (start : List F) (a : Rows F) (w : List F) :
      ((a.scaleColumns e).zip w).foldl (fun sums pair => addMultiple pair.2 sums pair.1)
        (stretch e start) =
      stretch e ((a.zip w).foldl (fun sums pair => addMultiple pair.2 sums pair.1) start) := by
    induction a generalizing start w with
    | nil => rfl
    | cons row a ih =>
      cases w with
      | nil => rfl
      | cons factor w =>
        rw [List.zip_cons_cons, List.foldl_cons, ← ih, ← addMultiple_stretch]
        rfl
  have zeros : stretch e (List.replicate n (0 : F)) = List.replicate n 0 := by
    apply List.ext_getElem
    · simp [units.length]
    · intro i _ _
      simp [stretch]
  rw [square.applyTranspose_eq, (square.scaleColumns units).applyTranspose_eq, ← sums, zeros]

theorem RootSearch.addOuter_scaleColumns (e w : List F) (a : Rows F) (v : List F) :
    addOuter (stretch e w) (a.scaleColumns e) v = Rows.scaleColumns e (addOuter w a v) := by
  induction a generalizing v with
  | nil => rfl
  | cons row a ih =>
    cases v with
    | nil => rfl
    | cons weight v =>
      change addMultiple _ _ _ :: addOuter _ (Rows.scaleColumns e a) v = stretch e _ :: _
      rw [addMultiple_stretch, ih]
      rfl

/-- The lengths of scaled columns. -/
theorem RootSearch.columnNorms_scaleColumns [ExactRoots F] (square : a.IsSquare n)
    (units : Units e n) : columnNorms (a.scaleColumns e) n =
      (columnNorms a n).map (stretch e) := by
  rw [columnNorms_eq square, columnNorms_eq (square.scaleColumns units)]
  refine congrArg Except.ok ?_
  apply List.ext_getElem
  · simp [units.length]
  · intro j inside _
    rw [List.length_map, List.length_range] at inside
    have unit : j < e.length := units.length ▸ inside
    have column : (a.scaleColumns e).map (fun row => row.getD j 0) =
        (a.map fun row => row.getD j 0).map fun x => e[j] * x := by
      rw [Rows.scaleColumns, List.map_map, List.map_map]
      refine List.map_congr_left fun row member => ?_
      have entry : j < row.length := square.row member ▸ inside
      simp [stretch, entry, unit]
    simp only [List.getElem_map, List.getElem_range, stretch, List.getElem_zipWith]
    rw [column, norm_scale (units.pos (List.getElem_mem unit)).le]

end Matrices

/-! ## Elimination -/

section Elimination

variable [ExactOrderedField F] {c : F} {e : List F}

/-- The row with the entries that are left multiplied by their units. -/
def PartialRow.scale (e : List F) (r : PartialRow F) : PartialRow F :=
  { r with rest := stretch e r.rest }

/-- The factors with the columns of the upper one multiplied by their units. -/
def Factors.scale : List F → Factors F → Factors F
  | c :: e, r :: factors =>
    { r with pivot := c * r.pivot, upper := stretch e r.upper } :: scale e factors
  | _, factors => factors

theorem PartialRow.head_scale (c : F) (e : List F) (r : PartialRow F) :
    (r.scale (c :: e)).head = c * r.head := by
  obtain ⟨_, _, _ | ⟨x, rest⟩⟩ := r
  · exact (mul_zero c).symm
  · rfl

theorem PartialRow.tail_scale (c : F) (e : List F) (r : PartialRow F) :
    (r.scale (c :: e)).rest.tail = stretch e r.rest.tail := by
  obtain ⟨_, _, _ | ⟨x, rest⟩⟩ := r <;> rfl

/-- The multiplier that clears a head does not depend on the unit of its column. -/
theorem PartialRow.eliminate_scale (nonzero : c ≠ 0) (e : List F) (pivot r : PartialRow F) :
    (pivot.scale (c :: e)).eliminate (r.scale (c :: e)) = (pivot.eliminate r).scale e := by
  simp only [eliminate, head_scale, tail_scale, mul_div_mul_left _ _ nonzero]
  rw [scale, PartialRow.mk.injEq]
  refine ⟨rfl, rfl, ?_⟩
  change _ = stretch e (List.zipWith _ _ _)
  apply List.ext_getElem
  · simp only [List.length_zipWith, length_stretch]
    omega
  · intro i _ _
    simp only [stretch, List.getElem_zipWith]
    ring

private theorem PartialRow.toFactored_scale (c : F) (e : List F) (r : PartialRow F)
    (factors : Factors F) :
    (r.scale (c :: e)).toFactored :: factors.scale e =
      Factors.scale (c :: e) (r.toFactored :: factors) := by
  rw [toFactored, head_scale, tail_scale]
  rfl

private theorem largerHead?_scale (positive : 0 < c) (e : List F) (best : F) (place : Nat)
    (rows : List (PartialRow F)) :
    largerHead? (c * best) place (rows.map (PartialRow.scale (c :: e))) =
      (largerHead? best place rows).map fun (i, size) => (i, c * size) := by
  induction rows generalizing best place with
  | nil => rfl
  | cons r rows ih =>
    have size : Arith.abs (r.scale (c :: e)).head = c * Arith.abs r.head := by
      rw [PartialRow.head_scale, Arith.abs_eq, Arith.abs_eq, abs_mul, abs_of_pos positive]
    rw [List.map_cons, largerHead?, largerHead?, size]
    dsimp only
    simp only [mul_lt_mul_iff_right₀ positive, ih]
    split_ifs with larger
    · cases largerHead? (Arith.abs r.head) (place + 1) rows <;> rfl
    · rfl

private theorem choosePivot_scale (positive : 0 < c) (e : List F) (first : PartialRow F)
    (rows : List (PartialRow F)) :
    choosePivot (first.scale (c :: e)) (rows.map (PartialRow.scale (c :: e))) =
      let (pivot, size, others) := choosePivot first rows
      (pivot.scale (c :: e), c * size, others.map (PartialRow.scale (c :: e))) := by
  have size : Arith.abs (first.scale (c :: e)).head = c * Arith.abs first.head := by
    rw [PartialRow.head_scale, Arith.abs_eq, Arith.abs_eq, abs_mul, abs_of_pos positive]
  rw [choosePivot, choosePivot, size, largerHead?_scale positive]
  cases largerHead? (Arith.abs first.head) 0 rows with
  | none => rfl
  | some found => simp [List.getD_eq_getElem?_getD, List.map_set]

/-- Elimination with scaled columns takes the same pivots, if every pivot will do that is not zero.
-/
theorem eliminateColumns_scale {columns : Nat} (units : Units e columns)
    (rows : List (PartialRow F)) :
    eliminateColumns 0 columns (rows.map (PartialRow.scale e)) =
      (eliminateColumns 0 columns rows).map (Factors.scale e) := by
  induction columns generalizing e rows with
  | zero =>
    obtain rfl := List.length_eq_zero_iff.mp units.length
    rfl
  | succ columns ih =>
    obtain ⟨c, e, rfl⟩ := List.exists_cons_of_length_eq_add_one units.length
    cases rows with
    | nil => rfl
    | cons first rows =>
      have positive := units.head_pos
      rw [List.map_cons, eliminateColumns, eliminateColumns, choosePivot_scale positive]
      obtain ⟨pivot, size, others⟩ := choosePivot first rows
      dsimp only
      have eliminated : (others.map (PartialRow.scale (c :: e))).map
          (pivot.scale (c :: e)).eliminate =
          (others.map pivot.eliminate).map (PartialRow.scale e) := by
        simp only [List.map_map]
        exact List.map_congr_left fun r _ => PartialRow.eliminate_scale positive.ne' e pivot r
      rw [eliminated, ih units.tail]
      have vanishing : c * size ≤ 0 ↔ size ≤ 0 :=
        ⟨fun below => nonpos_of_mul_nonpos_right below positive,
          mul_nonpos_of_nonneg_of_nonpos positive.le⟩
      simp only [vanishing]
      split_ifs with vanishes
      · rfl
      · rw [Option.map_map, Option.map_map]
        refine congrArg (Option.map · _) (funext fun factors => ?_)
        exact PartialRow.toFactored_scale ..

namespace Factors

/-- The lower factor has no units. -/
theorem forward_scale (e : List F) (factors : Factors F) (b : List F) :
    (factors.scale e).forward b = factors.forward b := by
  suffices ∀ solved : List F, (factors.scale e).foldl (fun solved r =>
      solved ++ [subtractProducts (b.getD r.source 0) r.lower solved]) solved =
      factors.foldl (fun solved r =>
        solved ++ [subtractProducts (b.getD r.source 0) r.lower solved]) solved from this []
  induction factors generalizing e with
  | nil => exact fun _ => by rw [scale]; nofun
  | cons r factors ih =>
    cases e with
    | nil => exact fun _ => rfl
    | cons c e => exact fun solved => ih e _

/-- The upper factor gives the solution in the units. -/
theorem backward_scale {factors : Factors F} (units : Units e factors.length) (y : List F) :
    (factors.scale e).backward y = shrink e (factors.backward y) := by
  induction factors generalizing e y with
  | nil =>
    obtain rfl := List.length_eq_zero_iff.mp units.length
    rfl
  | cons r factors ih =>
    obtain ⟨c, e, rfl⟩ := List.exists_cons_of_length_eq_add_one units.length
    cases y with
    | nil => rfl
    | cons x y =>
      have solved := ih units.tail y
      have short : (backward factors y).length ≤ factors.length :=
        (length_backward factors y).trans_le (Nat.min_le_left ..)
      change subtractProducts x (stretch e r.upper) (backward _ y) / (c * r.pivot) ::
        backward _ y = subtractProducts x r.upper (backward factors y) / r.pivot / c :: _
      rw [solved, subtractProducts_eq, subtractProducts_eq,
        units.tail.dot_stretch_shrink short, div_div, mul_comm c]
      rfl

private theorem solve_scale {factors : Factors F} (units : Units e factors.length) (b : List F) :
    (factors.scale e).solve b = shrink e (factors.solve b) := by
  rw [solve, forward_scale, backward_scale units]
  rfl

end Factors

/-- With the bound for rounding errors at zero, scaled columns have scaled factors, if they have
factors at all. -/
theorem Rows.IsSquare.factor?_scaleColumns [ExactRoots F] (unrounded : (epsilon : F) = 0)
    {a : Rows F} {n : Nat} (square : a.IsSquare n) (units : Units e n) :
    (a.scaleColumns e).factor? = a.factor?.map (Factors.scale e) := by
  have zero : largest (a.scaleColumns e).flatten = 0 ↔ largest a.flatten = 0 := by
    rw [largest_eq_zero_iff, largest_eq_zero_iff, List.forall_mem_flatten, List.forall_mem_flatten,
      Rows.scaleColumns, List.forall_mem_map]
    exact forall₂_congr fun row member => units.forall_stretch_eq_zero_iff (square.row member).le
  have columns : (a.scaleColumns e).length = n := (square.scaleColumns units).length
  have rows : (a.scaleColumns e).partialRows = a.partialRows.map (PartialRow.scale e) := by
    rw [Rows.partialRows, Rows.scaleColumns, List.zipIdx_map, Rows.partialRows, List.map_map,
      List.map_map]
    rfl
  have same : (largest (a.scaleColumns e).flatten == 0) = (largest a.flatten == 0) := by
    rw [Bool.eq_iff_iff, beq_iff_eq, beq_iff_eq, zero]
  rw [factor?_eq, factor?_eq]
  simp only [ExactRoots.isFinite_eq, unrounded, zero_mul, rows, columns, square.length,
    eliminateColumns_scale units, same]
  split_ifs <;> rfl

/-- The solution of the equations with scaled columns is the solution in the units. -/
theorem Rows.IsSquare.solve?_scaleColumns [ExactRoots F] (unrounded : (epsilon : F) = 0)
    {a : Rows F} {n : Nat} (square : a.IsSquare n) (units : Units e n) (b : List F) :
    (a.scaleColumns e).solve? b = (a.solve? b).map (shrink e) := by
  rw [solve?, solve?, square.factor?_scaleColumns unrounded units]
  cases found : a.factor? with
  | none => rfl
  | some factors =>
    have length := (factor?_length found).trans square.length
    exact congrArg some (Factors.solve_scale (length ▸ units) b)

end Elimination

end ImplicitDiff
