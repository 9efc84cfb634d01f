import Mathlib.Tactic
import ImplicitDiff.Proofs.Dense.Columns
import ImplicitDiff.Solver.Implicit

/-! # The derivative of a root as a value

Equations note their calls in the journal but do not read it, so the derivative of a root is the
same whatever the journal holds. It is read off the residuals and one Jacobian, with respect to
unknowns and parameters in one vector: seeding an entry of that vector is the same call as seeding
an entry of the part that it belongs to.
-/

namespace ImplicitDiff

variable {F : Type} [Arith F]

/-! ## The Jacobian by two vectors in one -/

theorem mapIdx_eq_constant {x : List F} {p : Nat → Prop} [DecidablePred p]
    (outside : ∀ i < x.length, ¬p i) :
    (x.mapIdx fun i c => if p i then Dual.seeded c else Dual.constant c) =
      x.map Dual.constant := by
  apply List.ext_getElem (by simp)
  intro i inside _
  rw [List.length_mapIdx] at inside
  rw [List.getElem_mapIdx, if_neg (outside i inside), List.getElem_map]

private theorem seededAt_append_of_lt {x : List F} {j : Nat} (inside : j < x.length) (y : List F) :
    seededAt (x ++ y) j = seededAt x j ++ y.map Dual.constant := by
  rw [seededAt, List.mapIdx_append, mapIdx_eq_constant (p := fun i => i + x.length = j)
    fun i _ => by omega]
  rfl

private theorem seededAt_append_of_le (x y : List F) (j : Nat) :
    seededAt (x ++ y) (x.length + j) = x.map Dual.constant ++ seededAt y j := by
  rw [seededAt, List.mapIdx_append, mapIdx_eq_constant fun i inside => by omega, seededAt]
  simp only [Nat.add_comm x.length, Nat.add_right_cancel_iff]

theorem values_of_jacobian {f : List (Dual F) → Except Fault (List (Dual F))} {x values : List F}
    {rows : Rows F} (found : jacobian f x = .ok (values, rows)) :
    (f (x.map Dual.constant)).map (List.map Dual.primal) = .ok values := by
  obtain ⟨plain, called, found⟩ := except_bind_eq_ok_iff.mp found
  obtain ⟨columns, -, last⟩ := except_bind_eq_ok_iff.mp found
  cases last
  rw [called]
  rfl

/-- A Jacobian has a row for each value and a column for each entry of the point. -/
theorem jacobian_shape {f : List (Dual F) → Except Fault (List (Dual F))} {x values : List F}
    {rows : Rows F} (found : jacobian f x = .ok (values, rows)) :
    rows.length = values.length ∧ ∀ row ∈ rows, row.length = x.length := by
  obtain ⟨plain, -, found⟩ := except_bind_eq_ok_iff.mp found
  obtain ⟨columns, along, last⟩ := except_bind_eq_ok_iff.mp found
  cases last
  constructor
  · simp
  · rw [List.forall_mem_map]
    intro i _
    rw [List.length_map, ← (mapM_eq_ok_iff.mp along).length_eq, List.length_range]

/-- The Jacobian by two vectors in one consists of the Jacobians by either of them, with the other
one constant. -/
theorem jacobian_append (g : List (Dual F) → List (Dual F) → Except Fault (List (Dual F)))
    (x y : List F) :
    jacobian (fun z => g (z.take x.length) (z.drop x.length)) (x ++ y) = (do
      let (values, left) ← jacobian (fun xs => g xs (y.map Dual.constant)) x
      let (_, right) ← jacobian (fun ys => g (x.map Dual.constant) ys) y
      return (values, left.zipWith (· ++ ·) right) : Except Fault (List F × Rows F)) := by
  have unseeded : g (((x ++ y).map Dual.constant).take x.length)
      (((x ++ y).map Dual.constant).drop x.length) =
        g (x.map Dual.constant) (y.map Dual.constant) := by
    simp
  have left : (List.range x.length).mapM (fun j => g ((seededAt (x ++ y) j).take x.length)
      ((seededAt (x ++ y) j).drop x.length)) =
        (List.range x.length).mapM fun j => g (seededAt x j) (y.map Dual.constant) := by
    refine mapM_congr fun j inside => ?_
    have long : (seededAt x j).length = x.length := List.length_mapIdx
    rw [seededAt_append_of_lt (List.mem_range.mp inside), List.take_left' long,
      List.drop_left' long]
  have right : ((List.range y.length).map (x.length + ·)).mapM (fun j =>
      g ((seededAt (x ++ y) j).take x.length) ((seededAt (x ++ y) j).drop x.length)) =
        (List.range y.length).mapM fun j => g (x.map Dual.constant) (seededAt y j) := by
    rw [List.mapM_map]
    refine mapM_congr fun j _ => ?_
    rw [Function.comp_apply, seededAt_append_of_le, List.take_left' (List.length_map _),
      List.drop_left' (List.length_map _)]
  unfold jacobian
  dsimp only
  rw [unseeded, List.length_append, List.range_add, List.mapM_append, left, right]
  -- The call without a seed is the same for all three.
  cases g (x.map Dual.constant) (y.map Dual.constant) with
  | error fault => rfl
  | ok values =>
    cases (List.range x.length).mapM fun j => g (seededAt x j) (y.map Dual.constant) with
    | error fault => rfl
    | ok columns =>
      cases (List.range y.length).mapM fun j => g (x.map Dual.constant) (seededAt y j) with
      | error fault => rfl
      | ok others =>
        refine congrArg (fun rows => Except.ok (values.map Dual.primal, rows)) ?_
        dsimp only
        rw [List.zipWith_map, List.zipWith_self]
        exact List.map_congr_left fun i _ => List.map_append

/-- The first `n` columns. -/
def Rows.columnsBefore (a : Rows F) (n : Nat) : Rows F := a.map (List.take n)

/-- The columns after the first `n`. -/
def Rows.columnsFrom (a : Rows F) (n : Nat) : Rows F := a.map (List.drop n)

/-- The matrix with the opposite entries. -/
def Rows.opposite (a : Rows F) : Rows F := a.map fun row => row.map fun d => -d

omit [Arith F] in
/-- Matrices that were put side by side can be taken apart. -/
theorem columns_zipWith_append {left right : Rows F} {n : Nat}
    (same : left.length = right.length) (wide : ∀ row ∈ left, row.length = n) :
    Rows.columnsBefore (left.zipWith (· ++ ·) right) n = left ∧
      Rows.columnsFrom (left.zipWith (· ++ ·) right) n = right := by
  rw [Rows.columnsBefore, Rows.columnsFrom]
  induction left generalizing right with
  | nil =>
    obtain rfl := List.length_eq_zero_iff.mp same.symm
    exact ⟨rfl, rfl⟩
  | cons row left ih =>
    obtain ⟨other, right, rfl⟩ := List.exists_cons_of_length_eq_add_one same.symm
    obtain ⟨first, rest⟩ := List.forall_mem_cons.mp wide
    obtain ⟨taken, dropped⟩ := ih (Nat.succ.inj same) rest
    rw [List.zipWith_cons_cons, List.map_cons, List.map_cons, taken, dropped,
      List.take_left' first, List.drop_left' first]
    exact ⟨rfl, rfl⟩

/-- A Jacobian is the same whatever the journal holds, if the function is. -/
theorem EndsIn.jacobian {f : List (Dual F) → SearchM F (List (Dual F))}
    {g : List (Dual F) → Except Fault (List (Dual F))} (each : ∀ x, EndsIn (f x) (g x))
    (x : List F) : EndsIn (ImplicitDiff.jacobian f x) (ImplicitDiff.jacobian g x) :=
  (each _).bind fun _ => (EndsIn.mapM (fun j => each (seededAt x j)) _).bind fun _ => .pure _

namespace Solver

/-- The residuals at a point, and the Jacobian with respect to unknowns and parameters in one
vector, the unknowns first. -/
def Equations.linearized (equations : Equations F) (data : Data F) (x y : List F) :
    Except Fault (List F × Rows F) :=
  ImplicitDiff.jacobian (fun z => equations.residual data (z.take x.length) (z.drop x.length))
    (x ++ y)

/-- What the restricted equations give. -/
def Restriction.outcome (r : Restriction F) (x : List (Dual F)) : Except Fault (List (Dual F)) :=
  match r.free with
  | .unknowns => r.equations.residual r.data x (r.fixed.map Dual.constant)
  | .parameters => r.equations.residual r.data (r.fixed.map Dual.constant) x

namespace Restriction

variable (r : Restriction F)

theorem call_endsIn (x : List (Dual F)) : EndsIn (r.call x) (r.outcome x) := by
  obtain ⟨equations, data, _ | _, fixed⟩ := r
  all_goals
    exact (EndsIn.note _).bind fun _ => (Yields.wrote _).endsIn.bind fun _ => .ofExcept _

theorem residual_endsIn (x : List F) :
    EndsIn (r.residual x) (return (← r.outcome (x.map Dual.constant)).map Dual.primal) :=
  (EndsIn.note _).bind fun _ => (r.call_endsIn _).bind fun _ => .pure _

theorem jacobian_endsIn (x : List F) :
    EndsIn (r.jacobian x) (return (← ImplicitDiff.jacobian r.outcome x).2) :=
  (EndsIn.note _).bind fun _ => (EndsIn.jacobian r.call_endsIn x).bind fun _ => .pure _

end Restriction

/-- The derivative of a root from the residuals and the Jacobian, whose first `n` columns belong to
the unknowns and the other `k` to the parameters. -/
inductive Derived (n k : Nat) (residuals : List F) (rows : Rows F) :
    Except (Failure F) (Rows F) → Prop
  | mismatch : residuals.length ≠ n →
      Derived n k residuals rows (.error (.dimensionMismatch n residuals.length))
  | singular : residuals.length = n → (rows.columnsBefore n).factor? = none →
      Derived n k residuals rows (.error .singularJacobian)
  | block {factors : Factors F} : residuals.length = n →
      (rows.columnsBefore n).factor? = some factors →
      Derived n k residuals rows
        (.ok (factors.solutions (rows.columnsFrom n).opposite k))

/-- A derivative has a row for each unknown and a column for each parameter. -/
theorem Derived.shape {n k : Nat} {residuals : List F} {rows block : Rows F}
    (derived : Derived n k residuals rows (.ok block)) (length : rows.length = residuals.length) :
    block.length = n ∧ ∀ row ∈ block, row.length = k := by
  cases derived with
  | block fits factored =>
    refine ⟨?_, fun row => Factors.length_of_mem_solutions⟩
    rw [Factors.length_solutions, Rows.factor?_length factored, Rows.columnsBefore,
      List.length_map, length, fits]

/-- What comes of the two Jacobians. -/
theorem rootDerivative_gives_derived {equations : Equations F} {root parameters residuals : List F}
    {data : Data F} {rows : Rows F}
    (left : EndsIn ((equations.atParameters data parameters).jacobian root)
      (.ok (rows.columnsBefore root.length)))
    (right : EndsIn ((equations.atUnknowns data root).jacobian parameters)
      (.ok (rows.columnsFrom root.length)))
    (length : rows.length = residuals.length)
    (wide : ∀ row ∈ rows, row.length = root.length + parameters.length) :
    ∃ result, Gives (rootDerivative equations root parameters data) result ∧
      Derived root.length parameters.length residuals rows result := by
  have asMany : (rows.columnsBefore root.length).length = residuals.length :=
    (List.length_map _).trans length
  by_cases fits : residuals.length = root.length
  · have square : ¬(rows.columnsBefore root.length).length ≠ root.length :=
      not_not.mpr (asMany.trans fits)
    cases factored : (rows.columnsBefore root.length).factor? with
    | none =>
      have singular : (rows.columnsBefore root.length).solveRows?
          (rows.columnsFrom root.length).opposite = .ok none := by
        rw [Rows.solveRows?, factored]
      refine ⟨_, .bind (EndsIn.lift left) (.bind (EndsIn.lift right) ?_), .singular fits factored⟩
      dsimp only
      rw [if_neg square]
      exact .bind (.lift (.ofExcept singular)) (.throw _)
    | some factors =>
      have shape : factors.length = rows.length :=
        (Rows.factor?_length factored).trans (List.length_map _)
      have nonempty (none : (rows.columnsFrom root.length).opposite = []) : factors = [] := by
        rw [Rows.opposite, Rows.columnsFrom, List.map_map, List.map_eq_nil_iff] at none
        exact List.length_eq_zero_iff.mp (shape.trans (congrArg List.length none))
      have narrow : ∀ row ∈ (rows.columnsFrom root.length).opposite,
          row.length = parameters.length := by
        rw [Rows.opposite, Rows.columnsFrom, List.map_map, List.forall_mem_map]
        intro row member
        simp [wide row member]
      have solved : (rows.columnsBefore root.length).solveRows?
          (rows.columnsFrom root.length).opposite = .ok (some
            (factors.solutions (rows.columnsFrom root.length).opposite parameters.length)) := by
        rw [Rows.solveRows?, factored]
        dsimp only
        rw [Factors.solveRows_eq nonempty narrow]
        rfl
      refine ⟨_, .bind (EndsIn.lift left) (.bind (EndsIn.lift right) ?_), .block fits factored⟩
      dsimp only
      rw [if_neg square]
      exact .bind (.lift (.ofExcept solved)) (.bind (.lift (.note _)) (.pure _))
  · refine ⟨_, .bind (EndsIn.lift left) (.bind (EndsIn.lift right) ?_), .mismatch fits⟩
    dsimp only
    rw [if_pos (asMany.trans_ne fits), asMany]
    exact .stop (.throw _)

/-- **The derivative of a root** is read off the residuals and the Jacobian, unless these end in a
fault. -/
theorem rootDerivative_endsIn (equations : Equations F) (root parameters : List F)
    (data : Data F) :
    (∃ fault, equations.linearized data root parameters = .error fault ∧
      EndsIn (rootDerivative equations root parameters data).run (.error fault)) ∨
    ∃ residuals rows, equations.linearized data root parameters = .ok (residuals, rows) ∧
      ∃ result, Gives (rootDerivative equations root parameters data) result ∧
        Derived root.length parameters.length residuals rows result := by
  have byUnknowns := (equations.atParameters data parameters).jacobian_endsIn root
  have byParameters := (equations.atUnknowns data root).jacobian_endsIn parameters
  change EndsIn _ (return (← ImplicitDiff.jacobian
    (fun xs => equations.residual data xs (parameters.map Dual.constant)) root).2) at byUnknowns
  change EndsIn _ (return (← ImplicitDiff.jacobian
    (fun ys => equations.residual data (root.map Dual.constant) ys) parameters).2) at byParameters
  have together := jacobian_append (equations.residual data) root parameters
  cases left : ImplicitDiff.jacobian
      (fun xs => equations.residual data xs (parameters.map Dual.constant)) root with
  | error fault =>
    rw [left] at byUnknowns together
    exact .inl ⟨fault, together, .solve_stop byUnknowns⟩
  | ok linear =>
    obtain ⟨residuals, byX⟩ := linear
    rw [left] at byUnknowns together
    cases right : ImplicitDiff.jacobian
        (fun ys => equations.residual data (root.map Dual.constant) ys) parameters with
    | error fault =>
      rw [right] at byParameters together
      exact .inl ⟨fault, together, .solve_bind (EndsIn.lift byUnknowns) (.solve_stop byParameters)⟩
    | ok linear =>
      obtain ⟨others, byY⟩ := linear
      rw [right] at byParameters together
      have same : residuals = others :=
        Except.ok.inj ((values_of_jacobian left).symm.trans (values_of_jacobian right))
      obtain ⟨first, narrow⟩ := jacobian_shape left
      obtain ⟨length, wide⟩ := jacobian_shape together
      obtain ⟨before, after⟩ := columns_zipWith_append
        (first.trans ((congrArg List.length same).trans (jacobian_shape right).1.symm)) narrow
      rw [List.length_append] at wide
      refine .inr ⟨residuals, _, together, rootDerivative_gives_derived ?_ ?_ length wide⟩
      · rw [before]
        exact byUnknowns
      · rw [after]
        exact byParameters

theorem exists_derived {equations : Equations F} {root parameters residuals : List F}
    {data : Data F} {rows : Rows F}
    (linearized : equations.linearized data root parameters = .ok (residuals, rows)) :
    ∃ result, Gives (rootDerivative equations root parameters data) result ∧
      Derived root.length parameters.length residuals rows result := by
  obtain ⟨_, failed, -⟩ | ⟨_, _, known, found⟩ :=
    rootDerivative_endsIn equations root parameters data
  · cases linearized.symm.trans failed
  · cases linearized.symm.trans known
    exact found

/-- The derivative of a root is the same whatever the journal holds. -/
theorem exists_endsIn_rootDerivative (equations : Equations F) (root parameters : List F)
    (data : Data F) :
    ∃ result, EndsIn (rootDerivative equations root parameters data).run result := by
  obtain ⟨fault, -, ended⟩ | ⟨_, _, -, result, gives, -⟩ :=
    rootDerivative_endsIn equations root parameters data
  · exact ⟨_, ended⟩
  · exact ⟨.ok result, gives⟩

/-- The derivative of a root has one row for each unknown. -/
theorem length_rootDerivative {equations : Equations F} {root parameters : List F} {data : Data F}
    {block : Rows F} {journal after : Journal F}
    (found : (rootDerivative equations root parameters data).run.run.run journal =
      (.ok (.ok block), after)) : block.length = root.length := by
  obtain ⟨fault, -, events, ran⟩ | ⟨residuals, rows, linearized, result, ⟨events, ran⟩, derived⟩ :=
    rootDerivative_endsIn equations root parameters data
  · cases (ran journal).symm.trans found
  · cases (ran journal).symm.trans found
    exact (derived.shape (jacobian_shape linearized).1).1

end Solver

end ImplicitDiff
