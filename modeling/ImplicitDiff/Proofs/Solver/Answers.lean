import Mathlib.Tactic
import ImplicitDiff.Proofs.RootSearch.Iteration
import ImplicitDiff.Solver.Equations

/-! # Equations as a problem for a search

Equations that compute a function answer every question of a search, and a Jacobian with respect to
one argument always has one row for each residual and one column for each entry of the argument. All
that a question notes besides itself is which calls it took, each with what it wrote.
-/

namespace ImplicitDiff

variable {F : Type}

/-- A loop notes what its rounds note. -/
theorem Yields.mapM {α β : Type} {f : α → SearchM F β} {noted : α → Journal F} {g : α → β}
    {items : List α} (each : ∀ a ∈ items, Yields (f a) (noted a) (g a)) :
    Yields (items.mapM f) (items.flatMap fun a => (noted a).toList).toArray (items.map g) := by
  induction items with
  | nil => exact .pure []
  | cons a rest ih =>
    rw [List.forall_mem_cons] at each
    rw [List.mapM_cons, List.flatMap_cons, ← List.append_toArray, Array.toArray_toList]
    exact each.1.bind ((ih each.2).map (g a :: ·))

namespace Solver

/-- For `n` unknowns and `m` parameters the equations compute the function `f`. -/
def Equations.Computes (equations : Equations F) (data : Data F) (n m : Nat)
    (f : List (Dual F) → List (Dual F) → List (Dual F)) : Prop :=
  ∀ unknowns parameters, unknowns.length = n → parameters.length = m →
    equations.residual data unknowns parameters = .ok (f unknowns parameters)

/-- What equations write when they are called. -/
def Equations.writes (equations : Equations F) (data : Data F) : Event F → List (Message F)
  | .called unknowns parameters => equations.messages data unknowns parameters
  | _ => []

/-- A call of equations that compute something. -/
theorem Equations.call_yields {equations : Equations F} {data : Data F}
    {unknowns parameters values : List (Dual F)}
    (computes : equations.residual data unknowns parameters = .ok values) :
    Yields (equations.call data unknowns parameters) (#[.called unknowns parameters] ++
      ((equations.messages data unknowns parameters).map Event.wrote).toArray) values := by
  have wrote := (Yields.wrote (equations.messages data unknowns parameters)).bind
    (f := fun _ => liftM (equations.residual data unknowns parameters)) (.ofExcept computes)
  rw [Array.append_empty] at wrote
  exact (Yields.note _).bind wrote

variable [Arith F]

/-- The values of a function of dual numbers at numbers that do not vary. -/
def plainly (g : List (Dual F) → List (Dual F)) (x : List F) : List F :=
  (g (x.map Dual.constant)).map Dual.primal

/-- The residual of equations that compute `f`, as a function of the unknowns. -/
def residualAt (f : List (Dual F) → List (Dual F) → List (Dual F)) (parameters : List F) :
    List F → List F :=
  plainly fun x => f x (parameters.map Dual.constant)

/-- The rates of change of such a function, one row for each value. -/
def slopes (g : List (Dual F) → List (Dual F)) (x : List F) : Rows F :=
  let columns := (List.range x.length).map fun j => g (seededAt x j)
  (List.range (g (x.map Dual.constant)).length).map fun i =>
    columns.map fun column => (column[i]?.map Dual.tangent).getD 0

theorem length_slopes (g : List (Dual F) → List (Dual F)) (x : List F) :
    (slopes g x).length = (plainly g x).length := by
  simp [slopes, plainly]

theorem length_of_mem_slopes {g : List (Dual F) → List (Dual F)} {x row : List F}
    (member : row ∈ slopes g x) : row.length = x.length := by
  obtain ⟨i, -, rfl⟩ := List.mem_map.mp member
  simp

namespace Restriction

variable (r : Restriction F)

/-- The call of the equations with dual numbers for the free argument. -/
def called (x : List (Dual F)) : Event F :=
  match r.free with
  | .unknowns => .called x (r.fixed.map Dual.constant)
  | .parameters => .called (r.fixed.map Dual.constant) x

theorem isCall_called (x : List (Dual F)) : (r.called x).isCall := by
  unfold called
  split <;> rfl

/-- What is noted of the call. -/
def notes (x : List (Dual F)) : Journal F :=
  #[r.called x] ++ ((r.equations.writes r.data (r.called x)).map Event.wrote).toArray

theorem isOfEquations_notes (x : List (Dual F)) : ∀ e ∈ r.notes x, e.isOfEquations := by
  intro e member
  rcases Array.mem_append.mp member with call | message
  · rw [Array.mem_singleton.mp call, called]
    split <;> rfl
  · obtain ⟨text, -, rfl⟩ := List.mem_map.mp (List.mem_toArray.mp message)
    rfl

/-- With the other argument fixed, the equations compute the function `g` of `n` numbers. -/
def Computes (n : Nat) (g : List (Dual F) → List (Dual F)) : Prop :=
  ∀ x, x.length = n → Yields (r.call x) (r.notes x) (g x)

variable {r} {n : Nat} {g : List (Dual F) → List (Dual F)}

theorem Computes.residual_yields (computes : r.Computes n g) {x : List F} (length : x.length = n) :
    Yields (r.residual x) (#[.evaluated x] ++ r.notes (x.map Dual.constant)) (plainly g x) := by
  have values := computes (x.map Dual.constant) ((List.length_map _).trans length)
  exact (Yields.note _).bind (values.map (List.map Dual.primal))

/-- What is noted of the calls that a Jacobian takes: one at the point and one for each column. -/
def jacobianNotes (r : Restriction F) (x : List F) : Journal F :=
  r.notes (x.map Dual.constant) ++
    ((List.range x.length).flatMap fun j => (r.notes (seededAt x j)).toList).toArray

theorem Computes.jacobian_yields (computes : r.Computes n g) {x : List F} (length : x.length = n) :
    Yields (r.jacobian x) (#[.linearized x] ++ r.jacobianNotes x) (slopes g x) := by
  have values := computes (x.map Dual.constant) ((List.length_map _).trans length)
  have columns : Yields ((List.range x.length).mapM fun j => r.call (seededAt x j))
      ((List.range x.length).flatMap fun j => (r.notes (seededAt x j)).toList).toArray
      ((List.range x.length).map fun j => g (seededAt x j)) :=
    .mapM fun j _ => computes (seededAt x j) (List.length_mapIdx.trans length)
  have both : Yields (ImplicitDiff.jacobian r.call x) (r.jacobianNotes x)
      (plainly g x, slopes g x) := by
    refine values.bind ?_
    exact columns.map _
  exact (Yields.note _).bind (both.map Prod.snd)

/-- What the equations answer to a search. -/
def Computes.answers (computes : r.Computes n g) : RootSearch.Answers r.problem n where
  value := plainly g
  matrix := slopes g
  valueNotes x := r.notes (x.map Dual.constant)
  matrixNotes := r.jacobianNotes
  residual_yields := computes.residual_yields
  jacobian_yields := computes.jacobian_yields
  ofEquations_valueNotes _ := r.isOfEquations_notes _
  ofEquations_matrixNotes x e member := by
    rcases Array.mem_append.mp member with first | column
    · exact r.isOfEquations_notes _ e first
    · obtain ⟨j, -, noted⟩ := List.mem_flatMap.mp (List.mem_toArray.mp column)
      exact r.isOfEquations_notes _ e (Array.mem_toList_iff.mp noted)

theorem Computes.isSquare (computes : r.Computes n g) : computes.answers.IsSquare :=
  fun x length fits => ⟨(length_slopes g x).trans fits,
    fun member => (length_of_mem_slopes member).trans length⟩

end Restriction

section Restrict

variable {equations : Equations F} {data : Data F} {n m : Nat}
  {f : List (Dual F) → List (Dual F) → List (Dual F)}

theorem Equations.Computes.atParameters (computes : equations.Computes data n m f) {y : List F}
    (length : y.length = m) :
    (equations.atParameters data y).Computes n fun x => f x (y.map Dual.constant) := by
  intro x fits
  exact Equations.call_yields
    (computes x (y.map Dual.constant) fits ((List.length_map _).trans length))

end Restrict

end Solver

end ImplicitDiff
