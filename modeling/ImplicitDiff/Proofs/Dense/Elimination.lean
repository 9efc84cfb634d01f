import Mathlib.Tactic
import ImplicitDiff.Proofs.Dense.Lu
import ImplicitDiff.Proofs.Dense.Norm
import ImplicitDiff.Proofs.RootSearch.Shape

/-! # Elimination solves equations

A row in the course of an elimination stands for an equation in the unknowns that are left: what its
multipliers take of the solved rows above is subtracted from its right-hand side. Eliminating a
column replaces the equations below the pivot by equations without its unknown, and together with
the pivot's own equation they say the same. So the substitutions give the solution, and the only
one.
-/

namespace ImplicitDiff

open Arith

variable {F : Type}

section Course

variable [Arith F]

/-- The shape of a row of which `columns` entries are left after `solved` pivots. -/
structure PartialRow.Fits (columns solved : Nat) (r : PartialRow F) : Prop where
  rest : r.rest.length = columns
  multipliers : r.multipliers.length = solved

theorem PartialRow.Fits.eliminate {columns solved : Nat} {r p : PartialRow F}
    (fits : r.Fits (columns + 1) solved) (other : p.Fits (columns + 1) solved) :
    (p.eliminate r).Fits columns (solved + 1) := by
  constructor
  · simp [PartialRow.eliminate, fits.rest, other.rest]
  · simp [PartialRow.eliminate, fits.multipliers]

/-- The course of an elimination that succeeds, of a square block of rows that is left after
`solved` pivots: a row that is large enough becomes the pivot, and the others are eliminated by it.
-/
inductive Eliminated (tiny : F) : Nat → List (PartialRow F) → Factors F → Prop
  | done {solved : Nat} : Eliminated tiny solved [] []
  | column {solved : Nat} {first pivot : PartialRow F} {rows others : List (PartialRow F)}
      {size : F} {factors : Factors F} : choosePivot first rows = (pivot, size, others) →
      ¬size ≤ tiny →
      (∀ r ∈ pivot :: others, r.Fits (others.length + 1) solved) →
      Eliminated tiny (solved + 1) (others.map pivot.eliminate) factors →
      Eliminated tiny solved (first :: rows) (pivot.toFactored :: factors)

private theorem eliminated_of_eq_some {tiny : F} {columns solved : Nat} {rows : List (PartialRow F)}
    {factors : Factors F} (found : eliminateColumns tiny columns rows = some factors)
    (square : rows.length = columns) (fits : ∀ r ∈ rows, r.Fits columns solved) :
    Eliminated tiny solved rows factors := by
  induction columns generalizing solved rows factors with
  | zero =>
    cases found
    obtain rfl := List.length_eq_zero_iff.mp square
    exact .done
  | succ columns ih =>
    obtain ⟨first, rows, rfl⟩ := List.exists_cons_of_length_eq_add_one square
    rw [eliminateColumns] at found
    rcases chosen : choosePivot first rows with ⟨pivot, size, others⟩
    rw [chosen] at found
    dsimp only at found
    split_ifs at found with vanishes
    obtain ⟨rest, below, rfl⟩ := Option.map_eq_some_iff.mp found
    have same := (choosePivot_spec chosen).1
    have left : others.length = columns := Nat.succ.inj (same.length_eq.trans square)
    have all (r : PartialRow F) (member : r ∈ pivot :: others) : r.Fits (columns + 1) solved :=
      fits r (same.mem_iff.mp member)
    refine .column chosen vanishes (left ▸ all) (ih below ((List.length_map _).trans left) ?_)
    rw [List.forall_mem_map]
    intro r member
    exact (all r (List.mem_cons_of_mem _ member)).eliminate (all pivot List.mem_cons_self)

theorem Eliminated.length_eq {tiny : F} {solved : Nat} {rows : List (PartialRow F)}
    {factors : Factors F} (course : Eliminated tiny solved rows factors) :
    factors.length = rows.length := by
  induction course with
  | done => rfl
  | column chosen _ _ _ ih =>
    rw [List.length_cons, ih, List.length_map]
    exact (choosePivot_spec chosen).1.length_eq

/-- No pivot is too small. -/
theorem Eliminated.not_le {tiny : F} {solved : Nat} {rows : List (PartialRow F)}
    {factors : Factors F} (course : Eliminated tiny solved rows factors) :
    ∀ r ∈ factors, ¬Arith.abs r.pivot ≤ tiny := by
  induction course with
  | done => exact fun _ none => (nomatch none)
  | column chosen large _ _ ih =>
    rw [(choosePivot_spec chosen).2] at large
    exact List.forall_mem_cons.mpr ⟨large, ih⟩

/-- The rows of a matrix, before any column is eliminated. -/
def Rows.partialRows (a : Rows F) : List (PartialRow F) :=
  a.zipIdx.map fun pair => { source := pair.2, multipliers := [], rest := pair.1 }

omit [Arith F] in
theorem Rows.exists_mem_partialRows {a : Rows F} {row : List F} (member : row ∈ a) :
    ∃ r ∈ a.partialRows, r.rest = row := by
  obtain ⟨i, inside, rfl⟩ := List.getElem_of_mem member
  refine ⟨{ source := i, multipliers := [], rest := a[i] }, List.mem_map.mpr ⟨(a[i], i), ?_, rfl⟩,
    rfl⟩
  exact List.mem_zipIdx_iff_getElem?.mpr (List.getElem?_eq_getElem inside)

omit [Arith F] in
theorem Rows.IsSquare.fits_partialRows {a : Rows F} {n : Nat} (square : a.IsSquare n) :
    ∀ r ∈ a.partialRows, r.Fits n 0 := by
  rw [Rows.partialRows, List.forall_mem_map]
  rintro ⟨row, i⟩ member
  exact ⟨square.row (List.fst_mem_of_mem_zipIdx member), rfl⟩

theorem Rows.factor?_eq (a : Rows F) :
    a.factor? = if !isFinite (largest a.flatten) || largest a.flatten == 0 then none
      else eliminateColumns (epsilon * ((a.length : Int) : F) * largest a.flatten) a.length
        a.partialRows := rfl

/-- Factors come from an elimination that started with the rows of the matrix. -/
theorem Rows.IsSquare.eliminated {a : Rows F} {n : Nat} (square : a.IsSquare n)
    {factors : Factors F} (factored : a.factor? = some factors) :
    isFinite (largest a.flatten) = true ∧ (largest a.flatten == 0) = false ∧
      Eliminated (epsilon * ((n : Int) : F) * largest a.flatten) 0 a.partialRows factors := by
  rw [factor?_eq] at factored
  split_ifs at factored with unusable
  rw [Bool.or_eq_true, not_or, Bool.not_eq_true', Bool.not_eq_false, Bool.not_eq_true] at unusable
  refine ⟨unusable.1, unusable.2, ?_⟩
  rw [square.length] at factored
  exact eliminated_of_eq_some factored (by simp [partialRows, square.length])
    square.fits_partialRows

end Course

section Solutions

variable [ExactOrderedField F]

theorem Factors.subtractProducts_eq (start : F) (u v : List F) :
    subtractProducts start u v = start - dot u v := by
  have loop (pairs : List (F × F)) (start : F) :
      pairs.foldl (fun rest pair => rest - pair.1 * pair.2) start =
        start - (pairs.map fun pair => pair.1 * pair.2).sum := by
    induction pairs generalizing start with
    | nil => simp
    | cons pair pairs ih => rw [List.foldl_cons, ih, List.map_cons, List.sum_cons, sub_sub]
  rw [dot_eq_sum]
  exact loop (u.zip v) start

/-- A pivot that is large enough is not zero. -/
theorem head_ne_zero {tiny size : F} (nonneg : 0 ≤ tiny) {first pivot : PartialRow F}
    {rows others : List (PartialRow F)} (chosen : choosePivot first rows = (pivot, size, others))
    (large : ¬size ≤ tiny) : pivot.head ≠ 0 := by
  rw [(choosePivot_spec chosen).2, Arith.abs_eq, not_le] at large
  exact abs_pos.mp (nonneg.trans_lt large)

namespace PartialRow

variable {columns solved : Nat} {r p : PartialRow F} {b y x : List F}

/-- What is left of the right-hand side of a row, given the rows above. -/
def target (b y : List F) (r : PartialRow F) : F :=
  Factors.subtractProducts (b.getD r.source 0) r.multipliers y

/-- The equation that a row stands for. -/
def Solves (b y x : List F) (r : PartialRow F) : Prop := dot r.rest x = r.target b y

private theorem target_eliminate (p r : PartialRow F) (fits : r.multipliers.length = y.length)
    (a : F) :
    (p.eliminate r).target b (y ++ [a]) = r.target b y - r.head / p.head * a := by
  simp only [target, Factors.subtractProducts_eq, eliminate, dot_concat fits]
  ring

theorem Fits.dot_eq (fits : r.Fits (columns + 1) solved) (a : F) (x : List F) :
    dot r.rest (a :: x) = r.head * a + dot r.rest.tail x := by
  obtain ⟨c, rest, same⟩ := List.exists_cons_of_length_eq_add_one fits.rest
  rw [head, same, dot_cons]
  rfl

/-- Elimination subtracts the multiple of the pivot row that takes the unknown of the pivot away. -/
theorem Fits.dot_eliminate (fits : r.Fits (columns + 1) solved)
    (other : p.Fits (columns + 1) solved) (nonzero : p.head ≠ 0) (a : F) (x : List F) :
    dot (p.eliminate r).rest x = dot r.rest (a :: x) - r.head / p.head * dot p.rest (a :: x) := by
  have same : r.rest.tail.length = p.rest.tail.length := by simp [fits.rest, other.rest]
  have cancels : r.head / p.head * (p.head * a) = r.head * a := by field_simp
  change dot (r.rest.tail.zipWith _ p.rest.tail) x = _
  rw [dot_sub_mul same, fits.dot_eq, other.dot_eq, mul_add, cancels]
  ring

/-- Given the equation of the pivot row, an equation below says the same with and without the
unknown of the pivot. -/
theorem solves_eliminate_iff (fits : r.Fits (columns + 1) y.length)
    (other : p.Fits (columns + 1) y.length) (nonzero : p.head ≠ 0) {a : F}
    (pivot : p.Solves b y (a :: x)) :
    (p.eliminate r).Solves b (y ++ [p.target b y]) x ↔ r.Solves b y (a :: x) := by
  rw [Solves, Solves, target_eliminate p r fits.multipliers,
    fits.dot_eliminate other nonzero a, ← pivot]
  exact sub_left_inj

end PartialRow

/-- **Elimination solves equations.** The values of forward substitution come in the order of the
factors, and back substitution from them gives the only solution of the equations. -/
theorem Eliminated.solves {tiny : F} (nonneg : 0 ≤ tiny) {rows : List (PartialRow F)}
    {factors : Factors F} {y : List F} (course : Eliminated tiny y.length rows factors)
    (b : List F) :
    ∃ values, factors.foldl (fun solved r =>
        solved ++ [Factors.subtractProducts (b.getD r.source 0) r.lower solved]) y = y ++ values ∧
      ∀ x, x.length = rows.length →
        ((∀ r ∈ rows, r.Solves b y x) ↔ x = factors.backward values) := by
  generalize solved_eq : y.length = solved at course
  induction course generalizing y with
  | done =>
    refine ⟨[], (List.append_nil y).symm, fun x none => ?_⟩
    obtain rfl := List.length_eq_zero_iff.mp none
    exact iff_of_true (fun _ none => (nomatch none)) rfl
  | @column _ first pivot rows others size rest chosen large all _ ih =>
    subst solved_eq
    have nonzero := head_ne_zero nonneg chosen large
    have same := (choosePivot_spec chosen).1
    obtain ⟨values, forward, backward⟩ := ih (y := y ++ [pivot.target b y]) (by simp)
    refine ⟨pivot.target b y :: values, ?_, fun x long => ?_⟩
    · rw [List.foldl_cons]
      refine forward.trans ?_
      rw [List.append_assoc]
      rfl
    · obtain ⟨a, x, rfl⟩ := List.exists_cons_of_length_eq_add_one long
      have left : x.length = (others.map pivot.eliminate).length :=
        (Nat.succ.inj long).trans ((Nat.succ.inj same.length_eq).symm.trans
          (List.length_map _).symm)
      have others_iff (solves : pivot.Solves b y (a :: x)) :
          (∀ r ∈ others, r.Solves b y (a :: x)) ↔ x = rest.backward values := by
        rw [← backward x left, List.forall_mem_map]
        refine forall₂_congr fun r member => ?_
        exact (PartialRow.solves_eliminate_iff (all r (List.mem_cons_of_mem _ member))
          (all pivot List.mem_cons_self) nonzero solves).symm
      have pivot_iff : pivot.Solves b y (a :: x) ↔
          a = (pivot.target b y - dot pivot.rest.tail x) / pivot.head := by
        rw [PartialRow.Solves, (all pivot List.mem_cons_self).dot_eq, eq_div_iff nonzero,
          eq_sub_iff_add_eq, mul_comm a]
      have rows_iff : (∀ r ∈ first :: rows, r.Solves b y (a :: x)) ↔
          pivot.Solves b y (a :: x) ∧ ∀ r ∈ others, r.Solves b y (a :: x) := by
        rw [← List.forall_mem_cons]
        exact forall_congr' fun r => by rw [same.mem_iff]
      change _ ↔ a :: x = Factors.subtractProducts (pivot.target b y) pivot.rest.tail
        (rest.backward values) / pivot.head :: rest.backward values
      rw [rows_iff, Factors.subtractProducts_eq, List.cons.injEq]
      constructor
      · rintro ⟨first, others⟩
        obtain rfl := (others_iff first).mp others
        exact ⟨pivot_iff.mp first, rfl⟩
      · rintro ⟨first, rfl⟩
        have solves := pivot_iff.mpr first
        exact ⟨solves, (others_iff solves).mpr rfl⟩

/-- At first the rows stand for the equations with the matrix. -/
theorem Rows.solves_partialRows_iff (a : Rows F) {b : List F} (length : b.length = a.length)
    (x : List F) : (∀ r ∈ a.partialRows, r.Solves b [] x) ↔ a.apply x = b := by
  rw [partialRows, List.forall_mem_map]
  constructor
  · intro solves
    apply List.ext_getElem
    · rw [apply, List.length_map, length]
    · intro i _ inside
      have bound : i < a.length := length ▸ inside
      have member : (a[i], i) ∈ a.zipIdx :=
        List.mem_zipIdx_iff_getElem?.mpr (List.getElem?_eq_getElem bound)
      have equation : dot a[i] x = b.getD i 0 := solves _ member
      rw [List.getD_eq_getElem _ _ inside] at equation
      rw [← equation]
      exact List.getElem_map ..
  · rintro rfl ⟨row, i⟩ member
    have here : a[i]? = some row := List.mem_zipIdx_iff_getElem?.mp member
    change dot row x = (a.apply x).getD i 0
    rw [apply, List.getD_eq_getElem?_getD, List.getElem?_map, here]
    rfl

/-- The bound for pivots is not negative. -/
theorem tiny_nonneg (nonneg : 0 ≤ (epsilon : F)) (n : Nat) (v : List F) :
    0 ≤ epsilon * ((n : Int) : F) * largest v := by
  refine mul_nonneg (mul_nonneg nonneg ?_) (largest_nonneg v)
  exact_mod_cast Int.natCast_nonneg n

/-- Every pivot is larger in magnitude than the bound, so it is not zero. -/
theorem Rows.IsSquare.tiny_lt_pivot {a : Rows F} {n : Nat} (square : a.IsSquare n)
    {factors : Factors F} (factored : a.factor? = some factors) :
    ∀ r ∈ factors, epsilon * ((n : Int) : F) * largest a.flatten < |r.pivot| := by
  intro r member
  have large := (square.eliminated factored).2.2.not_le r member
  rwa [Arith.abs_eq, not_le] at large

theorem Rows.IsSquare.pivot_ne_zero {a : Rows F} {n : Nat} (square : a.IsSquare n)
    (nonneg : 0 ≤ (epsilon : F)) {factors : Factors F} (factored : a.factor? = some factors) :
    ∀ r ∈ factors, r.pivot ≠ 0 := fun r member =>
  abs_pos.mp ((tiny_nonneg nonneg n _).trans_lt (square.tiny_lt_pivot factored r member))

/-- **Factors solve equations.** The solution from the factors is the only vector of the right
length that the matrix takes to the right-hand side. -/
theorem Rows.IsSquare.apply_eq_iff {a : Rows F} {n : Nat} (square : a.IsSquare n)
    (nonneg : 0 ≤ (epsilon : F)) {factors : Factors F} (factored : a.factor? = some factors)
    {b x : List F} (length : b.length = n) (long : x.length = n) :
    a.apply x = b ↔ x = factors.solve b := by
  obtain ⟨-, -, course⟩ := square.eliminated factored
  obtain ⟨values, forward, backward⟩ :=
    Eliminated.solves (y := []) (tiny_nonneg nonneg n _) course b
  have rows : x.length = a.partialRows.length := by simp [partialRows, square.length, long]
  rw [← a.solves_partialRows_iff (length.trans square.length.symm), backward x rows, Factors.solve]
  exact Eq.congr_right (congrArg _ forward.symm)

end Solutions

end ImplicitDiff
