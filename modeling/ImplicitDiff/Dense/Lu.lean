import ImplicitDiff.Dense.Basic
import ImplicitDiff.Fault

/-! # Triangular factors

Elimination with partial pivoting: column by column, the row with the largest remaining head moves
to the front and multiples of it clear the heads of the rows below. A factored row keeps its
multipliers, its pivot and what is left to the right of it, so the rows together hold both
triangular factors, and each row knows which row of the matrix it came from.
-/

namespace ImplicitDiff

open Arith

/-- A row in the course of an elimination. -/
structure PartialRow (F : Type) where
  /-- The row of the matrix that this one came from. -/
  source : Nat
  /-- The multipliers of the pivot rows above, oldest first. -/
  multipliers : List F
  /-- The entries in the columns that are not eliminated yet. -/
  rest : List F
deriving Repr

/-- A row of the two triangular factors. -/
structure FactoredRow (F : Type) where
  /-- The row of the matrix that this one came from. -/
  source : Nat
  /-- The row of the lower factor, to the left of its unit diagonal. -/
  lower : List F
  /-- The diagonal entry of the upper factor. -/
  pivot : F
  /-- The row of the upper factor, to the right of its diagonal. -/
  upper : List F
deriving Repr

/-- The triangular factors of a matrix, row by row. -/
abbrev Factors (F : Type) := List (FactoredRow F)

variable {F : Type} [Arith F]

namespace PartialRow

/-- The entry in the column that is eliminated next. -/
def head (r : PartialRow F) : F := r.rest.headD 0

/-- Subtracts the multiple of a pivot row that clears the head. -/
def eliminate (pivot r : PartialRow F) : PartialRow F :=
  let factor := r.head / pivot.head
  { r with
    multipliers := r.multipliers ++ [factor]
    rest := r.rest.tail.zipWith (fun a b => a - factor * b) pivot.rest.tail }

/-- The row as it stays in the factors, once it was a pivot row. -/
def toFactored (r : PartialRow F) : FactoredRow F :=
  { source := r.source, lower := r.multipliers, pivot := r.head, upper := r.rest.tail }

end PartialRow

/-- The place of the first row among `rows` whose head is larger in magnitude than that of every row
before it and than `best`, or `none` if none beats `best`. Places are counted from `place`. -/
def largerHead? (best : F) (place : Nat) : List (PartialRow F) → Option (Nat × F)
  | [] => none
  | r :: rows =>
    let size := Arith.abs r.head
    if best < size then (largerHead? size (place + 1) rows).orElse fun _ => some (place, size)
    else largerHead? best (place + 1) rows

/-- The pivot row with the magnitude of its head, and the other rows. The first row takes the place
of the pivot row. -/
def choosePivot (first : PartialRow F) (rows : List (PartialRow F)) :
    PartialRow F × F × List (PartialRow F) :=
  match largerHead? (Arith.abs first.head) 0 rows with
  | none => (first, Arith.abs first.head, rows)
  | some (place, size) => (rows.getD place first, size, rows.set place first)

/-- Eliminates column after column, as long as each pivot is larger in magnitude than `tiny`. -/
def eliminateColumns (tiny : F) : Nat → List (PartialRow F) → Option (Factors F)
  | 0, _ => some []
  | _, [] => some []
  | columns + 1, first :: rows =>
    let (pivot, size, others) := choosePivot first rows
    if size ≤ tiny then none
    else (eliminateColumns tiny columns (others.map pivot.eliminate)).map (pivot.toFactored :: ·)

/-- The factors of a square matrix. There are none if the largest entry is zero or not finite, or if
a pivot is not larger than rounding errors of the largest entry would be. -/
def Rows.factor? (a : Rows F) : Option (Factors F) :=
  let scale := largest a.flatten
  if !isFinite scale || scale == 0 then none
  else
    let tiny := epsilon * ((a.length : Int) : F) * scale
    eliminateColumns tiny a.length
      (a.zipIdx.map fun (row, i) => { source := i, multipliers := [], rest := row })

namespace Factors

/-- Subtracts the products of paired entries one after the other. -/
def subtractProducts (start : F) (coefficients values : List F) : F :=
  (coefficients.zip values).foldl (fun rest (c, v) => rest - c * v) start

/-- Forward substitution: the solution for the lower factor, from the top. -/
def forward (factors : Factors F) (b : List F) : List F :=
  factors.foldl (fun solved r => solved ++ [subtractProducts (b.getD r.source 0) r.lower solved]) []

/-- Back substitution: the solution for the upper factor, from the bottom. -/
def backward (factors : Factors F) (y : List F) : List F :=
  (factors.zip y).foldr
    (fun (r, right) solved => subtractProducts right r.upper solved / r.pivot :: solved) []

/-- The solution of the factored equations for one right-hand side. -/
def solve (factors : Factors F) (b : List F) : List F := factors.backward (factors.forward b)

/-- Writes the entries of column `j` over a buffer, a row for each place from the front. Places
beyond the last row keep what they hold, and a row that is too short is a fault. -/
def gather (j : Nat) : List F → Rows F → Except Fault (List F)
  | _ :: buffer, row :: b => do
    let c ← fetch row[j]?
    return c :: (← gather j buffer b)
  | buffer, _ => return buffer

/-- Writes values into column `j`, one for each row from the top. -/
def scatter (j : Nat) : Rows F → List F → Rows F
  | row :: x, v :: values => row.set j v :: scatter j x values
  | x, _ => x

/-- Solves for column `j`. Its entries pass through the buffer, and its solution goes into column
`j` of the result. -/
def solveColumn (factors : Factors F) (b : Rows F) :
    Rows F × List F → Nat → Except Fault (Rows F × List F)
  | (x, buffer), j => do
    let buffer ← gather j buffer b
    return (scatter j x (factors.solve buffer), buffer)

/-- The solutions for all columns of a right-hand side, which is as wide as its first row. -/
def solveRows (factors : Factors F) (b : Rows F) : Except Fault (Rows F) := do
  let width := b.head?.map List.length |>.getD 0
  let blank := List.replicate factors.length (List.replicate width 0)
  let (x, _) ← (List.range width).foldlM (factors.solveColumn b)
    (blank, List.replicate factors.length 0)
  return x

end Factors

/-- The solution of the equations with a square matrix, if it has factors. -/
def Rows.solve? (a : Rows F) (b : List F) : Option (List F) := a.factor?.map (·.solve b)

/-- The solutions for all columns of a right-hand side, from one factorization. -/
def Rows.solveRows? (a : Rows F) (b : Rows F) : Except Fault (Option (Rows F)) :=
  match a.factor? with
  | none => .ok none
  | some factors => return some (← factors.solveRows b)

end ImplicitDiff
