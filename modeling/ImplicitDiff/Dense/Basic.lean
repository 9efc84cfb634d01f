import ImplicitDiff.Arith

/-! # Vectors and matrices as lists

A vector is a list and a matrix a list of rows. Products pair entries off from the front and stop at
the shorter side, so they are defined for every shape. The length of a vector is taken relative to
its largest entry, which keeps the squares of very large and very small entries in range.
-/

namespace ImplicitDiff

open Arith

/-- A matrix as the list of its rows. -/
abbrev Rows (F : Type) := List (List F)

variable {F : Type} [Arith F]

/-- The largest magnitude among the entries, zero for none. Entries that are no numbers do not
count. -/
def largest (v : List F) : F := v.foldl (fun m x => max m (Arith.abs x)) 0

/-- The Euclidean length. An entry that is no number makes it no number, and otherwise an infinite
entry makes it infinite. -/
def norm (v : List F) : F :=
  let scale := largest v
  if scale == 0 || !isFinite scale then
    -- The scale passes over entries that are no numbers, so they are looked for here.
    if v.any isNaN then nan else scale
  else
    scale * sqrt (v.foldl (fun sum x => let r := x / scale; sum + r * r) 0)

/-- The sum of the products of paired entries, from the front. -/
def dot (u v : List F) : F := (u.zip v).foldl (fun sum (a, b) => sum + a * b) 0

/-- The matrix times a column. -/
def Rows.apply (a : Rows F) (v : List F) : List F := a.map fun row => dot row v

/-- Adds a multiple of a row to a vector, which keeps its length. -/
def addMultiple (factor : F) : List F → List F → List F
  | s :: sums, r :: row => (s + r * factor) :: addMultiple factor sums row
  | sums, _ => sums

/-- A row of weights times the matrix: the weighted sum of its rows, as wide as the first one. -/
def Rows.applyTranspose (a : Rows F) (w : List F) : List F :=
  (a.zip w).foldl (fun sums (row, factor) => addMultiple factor sums row)
    (List.replicate (a.head?.map List.length |>.getD 0) 0)

/-- Whether every entry is finite. -/
def Rows.allFinite (a : Rows F) : Bool := a.all fun row => row.all isFinite

end ImplicitDiff
