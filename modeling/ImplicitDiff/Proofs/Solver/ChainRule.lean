import ImplicitDiff.Proofs.Derivative.Linear
import ImplicitDiff.Proofs.Program.Plain
import ImplicitDiff.Proofs.Solver.Attach

/-! # The chain rule through a root

A function that computes parameters, solves equations at them and goes on from the root is recorded
on one tape: statements, one node, statements again. One sweep over all of them gives the weighted
sum of the rows of its Jacobian, which is the product of the Jacobians of the pieces with the
derivative of the root between them. The search for the root does not enter.
-/

namespace ImplicitDiff.Solver

open scoped Matrix

variable {F : Type}

theorem lift_of_ok {α : Type} {m : RecordM F α} {a : α} {r last : Recorder F}
    (ran : m.run.run r = (.ok a, last)) :
    (liftM m : TracedSolveM F α).run.run.run r = (.ok (.ok a), last) :=
  run_bind_of_ok ran

variable [ExactField F]

/-- The tangents that a block gives to a root are its product with those of the parameters. -/
theorem transported_eq (block : Rows F) {duals : List (Dual F)} {n k : Nat}
    (length : duals.length = n) (i : Fin k) :
    transported block duals i =
      (Rows.matrix block k n *ᵥ vector (duals.map Dual.tangent) n) i := by
  rw [transported, sum_zip_eq _ _ Dual.tangent length]
  rfl

/-- In a unit direction of the inputs, the tangents of the root are a column of the product of the
block with the Jacobian of the parameters. -/
theorem transported_single (block : Rows F) {duals : (Nat → F) → List (Dual F)} {rows : Rows F}
    {q n : Nat} (known : ∀ free, (duals free).length = q)
    (columns : Rows.matrix rows q n =
      .of fun p j => ((duals (Pi.single j 1)).map Dual.tangent).getD p 0) (k : Nat) (j : Fin n) :
    (fun i : Fin k => transported block (duals (Pi.single j 1)) i) =
      (Rows.matrix block k q * Rows.matrix rows q n).col j := by
  funext i
  rw [transported_eq block (known _), columns]
  rfl

/-- Values whose tangents are linear in those of the inputs and of the root have the Jacobian of the
chain rule. -/
theorem matrix_through (block : Rows F) {duals results : (Nat → F) → List (Dual F)} {rows : Rows F}
    {m k q n : Nat} {byRoot : Matrix (Fin m) (Fin k) F} {byInputs : Matrix (Fin m) (Fin n) F}
    (known : ∀ free, (duals free).length = q)
    (columns : Rows.matrix rows q n =
      .of fun p j => ((duals (Pi.single j 1)).map Dual.tangent).getD p 0)
    (slopes : ∀ free, vector ((results free).map Dual.tangent) m =
      (byRoot *ᵥ fun i => transported block (duals free) i) + byInputs *ᵥ fun i => free i) :
    (.of fun i j => ((results (Pi.single j 1)).map Dual.tangent).getD i 0 :
      Matrix (Fin m) (Fin n) F) =
      byInputs + byRoot * (Rows.matrix block k q * Rows.matrix rows q n) := by
  ext i j
  have slope := congrFun (slopes (Pi.single j 1)) i
  have unit : (fun i : Fin n => (Pi.single (j : Nat) 1 : Nat → F) i) = Pi.single j 1 := by
    funext i
    simp only [Pi.single_apply, Fin.ext_iff]
  rw [transported_single block known columns, unit, Matrix.mulVec_single_one, add_comm] at slope
  exact slope

/-- A recording from the inputs `x` through the statements of `before` to a root, beside dual
numbers in all directions: `block` takes the tangents of the parameters to those of the root. After
it the words of the tape still suffice for `spare` statements. -/
structure ReachesRoot (equations : Equations F) (data : Data F) (before : Function F) (x : List F)
    (parameters root : List (Traced F)) (tape : Tape F) (spare : Nat) (block : Rows F)
    (duals : (Nat → F) → List (Dual F)) : Prop where
  runs : ∀ free, before.eval (M := Except Fault) { unknowns := varied free x } = .ok (duals free)
  values : ∀ free, (duals free).map Dual.primal = parameters.map Traced.value
  derived : parameters.any Traced.isTracked = true → ∀ journal,
    ((rootDerivative equations (root.map Traced.value) (parameters.map Traced.value)
      data).run.run.run journal).1 = .ok (.ok block)
  still : parameters.any Traced.isTracked = false → ∀ free, ∀ d ∈ duals free, d.tangent = 0
  stages : ∀ free, ∃ t : Recording F, t.tape = tape ∧ t.Room spare ∧
    (∀ k < x.length, (origins t.history)[k]? = some .free) ∧
    List.Forall₂ (Recording.Follows free t) (varied free x) (independents x).2 ∧
    List.Forall₂ (Recording.Follows free t)
      (varied (transported block (duals free)) (root.map Traced.value)) root

section Through

variable {equations : Equations F} {guess : List F} {data : Data F} {settings : Settings F}
  {before after : Function F} {x : List F} {r middle last : Recorder F}
  {parameters root : List (Traced F)}

private theorem reachesRoot
    (computed : (before.eval (M := RecordM F) { unknowns := (independents x).2 }).run.run
      ⟨some (independents x).1, r.journal⟩ = (.ok parameters, middle))
    (solved : (solveTraced equations guess parameters data settings).run.run.run middle =
      (.ok (.ok root), last)) {spare : Nat}
    (places : x.length + (before.program.length + (root.length + spare)) < 2 ^ 32)
    (operands : 2 * (before.program.length + (root.length + spare)) < 2 ^ 32) :
    ∃ tape journal block duals, last = ⟨some tape, journal⟩ ∧
      ReachesRoot equations data before x parameters root tape spare block duals := by
  obtain ⟨s, start, room, inputs, follows⟩ := exists_start places operands
  have runs (free : Nat → F) : Recording.Runs _ _ s
      (before.eval (M := Except Fault) { unknowns := varied free x })
      (before.eval (M := RecordM F) { unknowns := (independents x).2 }) :=
    (recording_respects free).function ⟨follows free, .nil, rfl, rfl⟩ before
  obtain ⟨fault, rest, failed, ended⟩ | ⟨outputs, tape, ran, all⟩ :=
    Recording.Runs.share (fun _ => start) runs fun _ => room
  · cases (ended _).symm.trans computed
  cases (ran _).symm.trans computed
  choose duals stage done same later left follow using all
  obtain ⟨found, second, searched, attached⟩ := solve_bind_eq_ok_iff.mp solved
  obtain ⟨journal, -, rfl⟩ := record_eq_ok_iff.mp searched
  have point : root.map Traced.value = found.point := values_of_attach attached
  have length : found.point.length = root.length := by rw [← point, List.length_map]
  obtain ⟨block, next, final, rfl, derived, still, attach⟩ :=
    attach_follows attached same follow fun free => length ▸ left free
  refine ⟨next, final, block, duals, rfl, done, fun free => primal_of_follows (follow free),
    point ▸ derived, still, fun free => ?_⟩
  obtain ⟨t, tape, onward, rest, moves⟩ := attach free
  refine ⟨t, tape, rest, fun k input => onward.origin ((later free).origin (inputs k input)), ?_,
    point ▸ moves⟩
  exact (follows free).imp fun _ _ old => (old.later (later free)).later onward

/-- The statements after the root go on with dual numbers for the root and for the inputs. -/
theorem ReachesRoot.exists_covers {tape : Tape F} {block : Rows F}
    {duals : (Nat → F) → List (Dual F)}
    (reached : ReachesRoot equations data before x parameters root tape after.program.length block
      duals) :
    (∃ fault, ∀ free, after.eval (M := Except Fault)
      { unknowns := varied (transported block (duals free)) (root.map Traced.value)
        parameters := varied free x } = .error fault) ∨
    ∃ outputs tape' results, (∀ free, after.eval (M := Except Fault)
        { unknowns := varied (transported block (duals free)) (root.map Traced.value)
          parameters := varied free x } = .ok (results free)) ∧
      (∀ journal, (after.eval (M := RecordM F)
          { unknowns := root, parameters := (independents x).2 }).run.run ⟨some tape, journal⟩ =
        (.ok outputs, ⟨some tape', journal⟩)) ∧
      Covers x.length tape' outputs results := by
  choose stage same room inputs given moves using reached.stages
  have runs (free : Nat → F) : Recording.Runs _ _ (stage free)
      (after.eval (M := Except Fault)
        { unknowns := varied (transported block (duals free)) (root.map Traced.value)
          parameters := varied free x })
      (after.eval (M := RecordM F) { unknowns := root, parameters := (independents x).2 }) :=
    (recording_respects free).function ⟨moves free, given free, rfl, rfl⟩ after
  have enough (free : Nat → F) : (stage free).Room (after.program.length + 0) := room free
  obtain ⟨fault, -, failed, -⟩ | ⟨outputs, last, ran, all⟩ :=
    Recording.Runs.share same runs enough
  · exact .inl ⟨fault, failed⟩
  · choose results t done kept later left follow using all
    refine .inr ⟨outputs, last, results, done, ran, fun free => ?_⟩
    exact ⟨t free, kept free, fun k input => (later free).origin (inputs free k input), follow free⟩

theorem ReachesRoot.matrix_eq {tape : Tape F} {spare : Nat} {block : Rows F}
    {duals : (Nat → F) → List (Dual F)}
    (reached : ReachesRoot equations data before x parameters root tape spare block duals)
    {byBefore : Rows F}
    (first : jacobian (fun xs => before.eval (M := Except Fault) { unknowns := xs }) x =
      .ok (parameters.map Traced.value, byBefore)) :
    Rows.matrix byBefore parameters.length x.length =
      .of fun p j => ((duals (Pi.single j 1)).map Dual.tangent).getD p 0 := by
  have columns := (matrix_of_jacobian reached.runs first).2
  rwa [List.length_map] at columns

/-- One sweep over the whole tape multiplies the weights with the Jacobians of the pieces. -/
theorem ReachesRoot.exists_gradient {tape : Tape F} {block : Rows F}
    {duals : (Nat → F) → List (Dual F)}
    (reached : ReachesRoot equations data before x parameters root tape after.program.length block
      duals)
    (fits : after.program.WithinWords (root.length + x.length))
    {values others weights : List F} {byBefore byRoot byInputs : Rows F}
    (first : jacobian (fun xs => before.eval (M := Except Fault) { unknowns := xs }) x =
      .ok (parameters.map Traced.value, byBefore))
    (left : jacobian (fun xs => after.eval (M := Except Fault)
      { unknowns := xs, parameters := x.map Dual.constant }) (root.map Traced.value) =
        .ok (values, byRoot))
    (right : jacobian (fun xs => after.eval (M := Except Fault)
      { unknowns := (root.map Traced.value).map Dual.constant, parameters := xs }) x =
        .ok (others, byInputs))
    (fit : weights.length = values.length) :
    ∃ outputs tape', (∀ journal, (after.eval (M := RecordM F)
        { unknowns := root, parameters := (independents x).2 }).run.run ⟨some tape, journal⟩ =
          (.ok outputs, ⟨some tape', journal⟩)) ∧
      outputs.map Traced.value = values ∧
      pullBack tape' x.length outputs weights = .ok (List.ofFn
        (vector weights values.length ᵥ* Rows.matrix byInputs values.length x.length +
          ((vector weights values.length ᵥ* Rows.matrix byRoot values.length root.length) ᵥ*
            Rows.matrix block root.length parameters.length) ᵥ*
              Rows.matrix byBefore parameters.length x.length)) := by
  have columns := reached.matrix_eq first
  have known (free : Nat → F) : (duals free).length = parameters.length := by
    rw [← List.length_map Dual.primal, reached.values, List.length_map]
  rw [← List.length_map Traced.value] at fits
  have along (free : Nat → F) :=
    after.eval_varied _ _ fits left right (transported block (duals free)) free
  obtain ⟨fault, failed⟩ | ⟨outputs, tape', results, runs, continued, covers⟩ :=
    reached.exists_covers
  · obtain ⟨_, ran, -⟩ := along fun _ => 0
    cases ran.symm.trans (failed _)
  -- Both Jacobians of `after` act at once: its inputs move on their own and through the root.
  have parts (free : Nat → F) : (results free).map Dual.primal = values ∧
      vector ((results free).map Dual.tangent) values.length =
        (Rows.matrix byRoot values.length root.length *ᵥ
          fun k => transported block (duals free) k) +
            Rows.matrix byInputs values.length x.length *ᵥ fun k => free k := by
    obtain ⟨ds, ran, same, slopes⟩ := along free
    cases ran.symm.trans (runs free)
    rw [List.length_map] at slopes
    exact ⟨same, slopes⟩
  have same : outputs.map Traced.value = values :=
    (covers.values_eq _).symm.trans (parts fun _ => 0).1
  have count : outputs.length = values.length := by rw [← same, List.length_map]
  refine ⟨outputs, tape', continued, same, ?_⟩
  rw [covers.pullBack_eq_vecMul (count.trans fit.symm), count, matrix_of_range,
    matrix_through block known columns fun free => (parts free).2, Matrix.vecMul_add,
    Matrix.vecMul_vecMul, Matrix.vecMul_vecMul]

/-- The run of the whole function, from the runs of its pieces. -/
theorem weightedGradientThrough_of_ok
    (computed : (before.eval (M := RecordM F) { unknowns := (independents x).2 }).run.run
      ⟨some (independents x).1, r.journal⟩ = (.ok parameters, middle))
    (solved : (solveTraced equations guess parameters data settings).run.run.run middle =
      (.ok (.ok root), last)) {outputs : List (Traced F)} {tape : Tape F} {journal : Journal F}
    (continued : (after.eval (M := RecordM F)
      { unknowns := root, parameters := (independents x).2 }).run.run last =
        (.ok outputs, ⟨some tape, journal⟩)) {weights gradient : List F}
    (swept : pullBack tape x.length outputs weights = .ok gradient) :
    (weightedGradientThrough equations guess data settings before after x weights).run.run.run r =
      (.ok (.ok (outputs.map Traced.value, gradient)), ⟨r.tape, journal⟩) := by
  let through (inputs : List (Traced F)) : TracedSolveM F (List (Traced F)) := do
    let parameters ← before.eval (M := RecordM F) { unknowns := inputs }
    let root ← solveTraced equations guess parameters data settings
    after.eval (M := RecordM F) { unknowns := root, parameters := inputs }
  have whole : (through (independents x).2).run.run.run ⟨some (independents x).1, r.journal⟩ =
      (.ok (.ok outputs), ⟨some tape, journal⟩) := by
    refine (solve_bind_of_ok (lift_of_ok computed)).trans ?_
    exact (solve_bind_of_ok solved).trans (lift_of_ok continued)
  have onTape : (recorded x fun inputs => (through inputs).run).run.run r = _ :=
    recorded_of_ok whole
  refine (solve_bind_of_ok (lift_of_ok onTape)).trans ?_
  exact solve_bind_of_ok (ofExcept_eq_ok_iff.mpr ⟨swept, rfl⟩)

/-- **The gradient through a root is the chain rule.** If the solve succeeds and the words of the
tape suffice, the sweep gives the values after the root and the weighted sum of the rows of their
Jacobian: by the inputs directly, and by the root, times the derivative of the root, times the
Jacobian of the parameters. This derivative is what `rootDerivative` gives; without a tracked
parameter it is not computed, and nothing moves the root. -/
theorem weightedGradientThrough_eq
    (computed : (before.eval (M := RecordM F) { unknowns := (independents x).2 }).run.run
      ⟨some (independents x).1, r.journal⟩ = (.ok parameters, middle))
    (solved : (solveTraced equations guess parameters data settings).run.run.run middle =
      (.ok (.ok root), last)) {values weights : List F}
    (continued : after.eval (M := Except Fault)
      { unknowns := root.map Traced.value, parameters := x } = .ok values)
    (fit : weights.length = values.length)
    (places : x.length + (before.program.length + (root.length + after.program.length)) < 2 ^ 32)
    (operands : 2 * (before.program.length + (root.length + after.program.length)) < 2 ^ 32) :
    ∃ byBefore byRoot byInputs block : Rows F,
      jacobian (fun xs => before.eval (M := Except Fault) { unknowns := xs }) x =
        .ok (parameters.map Traced.value, byBefore) ∧
      jacobian (fun xs => after.eval (M := Except Fault)
        { unknowns := xs, parameters := x.map Dual.constant }) (root.map Traced.value) =
          .ok (values, byRoot) ∧
      jacobian (fun xs => after.eval (M := Except Fault)
        { unknowns := (root.map Traced.value).map Dual.constant, parameters := xs }) x =
          .ok (values, byInputs) ∧
      (parameters.any Traced.isTracked = true → ∀ journal,
        ((rootDerivative equations (root.map Traced.value) (parameters.map Traced.value)
          data).run.run.run journal).1 = .ok (.ok block)) ∧
      (parameters.any Traced.isTracked = false →
        Rows.matrix byBefore parameters.length x.length = 0) ∧
      (weightedGradientThrough equations guess data settings before after x weights).run.run.run r =
        (.ok (.ok (values, List.ofFn
          (vector weights values.length ᵥ* Rows.matrix byInputs values.length x.length +
            ((vector weights values.length ᵥ* Rows.matrix byRoot values.length root.length) ᵥ*
              Rows.matrix block root.length parameters.length) ᵥ*
                Rows.matrix byBefore parameters.length x.length))), ⟨r.tape, last.journal⟩) := by
  obtain ⟨tape, journal, block, duals, rfl, reached⟩ := reachesRoot computed solved places operands
  have fits : after.program.WithinWords (root.length + x.length) := by constructor <;> omega
  obtain ⟨byBefore, first⟩ := exists_jacobian
    (f := fun xs => before.eval (M := Except Fault) { unknowns := xs })
    fun free => ⟨_, reached.runs free, reached.values free⟩
  have both := after.exists_duals continued
  obtain ⟨byRoot, left⟩ := exists_jacobian (x := root.map Traced.value)
    (f := fun xs => after.eval (M := Except Fault)
      { unknowns := xs, parameters := x.map Dual.constant })
    fun free => varied_zero x ▸ both free fun _ => 0
  obtain ⟨byInputs, right⟩ := exists_jacobian (x := x)
    (f := fun xs => after.eval (M := Except Fault)
      { unknowns := (root.map Traced.value).map Dual.constant, parameters := xs })
    fun free => varied_zero (root.map Traced.value) ▸ both (fun _ => 0) free
  obtain ⟨outputs, tape', onward, same, swept⟩ :=
    reached.exists_gradient fits first left right fit
  refine ⟨byBefore, byRoot, byInputs, block, first, left, right, reached.derived, ?_, ?_⟩
  · intro fixed
    rw [reached.matrix_eq first]
    ext p j
    have still := reached.still fixed (Pi.single j 1)
    rw [Matrix.of_apply, List.getD_eq_getElem?_getD, List.getElem?_map]
    cases found : (duals (Pi.single j 1))[(p : Nat)]? with
    | none => rfl
    | some d => exact still d (List.mem_of_getElem? found)
  · rw [← same]
    exact weightedGradientThrough_of_ok computed solved (onward journal) (same ▸ swept)

/-- The roots of `x₀² = y₀ + y₁` and `x₁ = y₂ x₀`, of which only `x₀` is used. One variable is
passed for `y₀` and for `y₂`, and a constant for `y₁`. -/
theorem weightedGradientThrough_eq_of_square :
    ∃ (equations before after : Function ℚ) (settings : Settings ℚ) (journal : Journal ℚ),
      (weightedGradientThrough (.ofFunction equations) [3, 18] {} settings before after [2, 3]
        [1, 2]).run.run.run {} = (.ok (.ok ([9, 3], [3 / 2, 6])), ⟨none, journal⟩) := by
  let equations : Function ℚ :=
    { program := [.unknown 0, .unknown 1, .parameter 0, .parameter 1, .parameter 2,
        .operate .mul 0 0, .operate .add 2 3, .operate .sub 5 6, .operate .mul 4 0,
        .operate .sub 1 8]
      outputs := [.always 7, .always 9] }
  let before : Function ℚ :=
    { program := [.unknown 0, .unknown 1, .operate .mul 0 1, .constant 3]
      outputs := [.always 2, .always 3, .always 2] }
  let after : Function ℚ :=
    { program := [.unknown 0, .parameter 1, .operate .mul 0 1]
      outputs := [.always 2, .always 1] }
  let settings : Settings ℚ := { relativeTolerance := 1, functionTolerance := 1, budget := 2 }
  let x : List ℚ := [2, 3]
  let parameters : List (Traced ℚ) := [⟨6, 2⟩, ⟨3, Index.constant⟩, ⟨6, 2⟩]
  let root : List (Traced ℚ) := [⟨3, 3⟩, ⟨18, 4⟩]
  let toParameters := (before.eval (M := RecordM ℚ) { unknowns := (independents x).2 }).run.run
    ⟨some (independents x).1, #[]⟩
  let toRoot := (solveTraced (.ofFunction equations) [3, 18] parameters {} settings).run.run.run
    toParameters.2
  have computed : toParameters = (.ok parameters, toParameters.2) :=
    Prod.ext (by decide +kernel) rfl
  have solved : toRoot = (.ok (.ok root), toRoot.2) := Prod.ext (by decide +kernel) rfl
  have continued : after.eval (M := Except Fault)
      { unknowns := root.map Traced.value, parameters := x } = .ok [9, 3] := by decide +kernel
  have weights : ([1, 2] : List ℚ).length = ([9, 3] : List ℚ).length := rfl
  obtain ⟨byBefore, byRoot, byInputs, block, first, left, right, derived, -, ran⟩ :=
    weightedGradientThrough_eq (r := {}) computed solved continued weights (by decide) (by decide)
  have first' : jacobian (fun xs => before.eval (M := Except Fault) { unknowns := xs }) x =
      .ok ([6, 3, 6], [[3, 2], [0, 0], [3, 2]]) := by decide +kernel
  have left' : jacobian (fun xs => after.eval (M := Except Fault)
      { unknowns := xs, parameters := x.map Dual.constant }) (root.map Traced.value) =
        .ok ([9, 3], [[3, 0], [0, 0]]) := by decide +kernel
  have right' : jacobian (fun xs => after.eval (M := Except Fault)
      { unknowns := (root.map Traced.value).map Dual.constant, parameters := xs }) x =
        .ok ([9, 3], [[0, 3], [0, 1]]) := by decide +kernel
  have derived' : ((rootDerivative (.ofFunction equations) [3, 18] [6, 3, 6] {}).run.run.run
      #[]).1 = .ok (.ok [[1 / 6, 1 / 6, 0], [1, 1, 3]]) := by decide +kernel
  cases first.symm.trans first'
  cases left.symm.trans left'
  cases right.symm.trans right'
  cases (derived (by decide) #[]).symm.trans derived'
  refine ⟨equations, before, after, settings, toRoot.2.journal, ran.trans (Prod.ext ?_ rfl)⟩
  decide +kernel

/-- A solve without a tracked parameter leaves the tape as it was. -/
theorem tape_of_untracked (untracked : parameters.any Traced.isTracked = false)
    (solved : (solveTraced equations guess parameters data settings).run.run.run middle =
      (.ok (.ok root), last)) : last.tape = middle.tape := by
  obtain ⟨found, second, searched, attached⟩ := solve_bind_eq_ok_iff.mp solved
  obtain ⟨journal, -, rfl⟩ := record_eq_ok_iff.mp searched
  cases (attach_of_untracked untracked).symm.trans attached
  rfl

/-- If `2 ^ 31` sums of the input with itself follow a root that the input does not move, the sweep
gives zero. -/
theorem weightedGradientThrough_lastSum {c w : F} {journal : Journal F}
    (computed : (before.eval (M := RecordM F) { unknowns := (independents [c]).2 }).run.run
      ⟨some (independents [c]).1, r.journal⟩ =
        (.ok parameters, ⟨some (independents [c]).1, journal⟩))
    (untracked : parameters.any Traced.isTracked = false)
    (solved : (solveTraced equations guess parameters data settings).run.run.run
      ⟨some (independents [c]).1, journal⟩ = (.ok (.ok root), last)) {n : Nat}
    (full : 2 * (n + 1) = 2 ^ 32) (seen : w ≠ 0) :
    (weightedGradientThrough equations guess data settings before
      (.lastSum [.parameter 0] n 0 0) [c] [w]).run.run.run r =
        (.ok (.ok ([c + c], [0])), ⟨r.tape, last.journal⟩) := by
  have read : Program.run (M := RecordM F) { unknowns := root, parameters := (independents [c]).2 }
      [.parameter 0] = pure #[⟨c, 0⟩] := rfl
  obtain ⟨⟨_, i⟩, tape, rfl, ran, swept⟩ := Function.eval_lastSum_of_one full read
  have same : last.tape = some (independents [c]).1 := tape_of_untracked untracked solved
  have continued := ran last.journal
  rw [← same] at continued
  exact weightedGradientThrough_of_ok computed solved continued (swept w seen)

/-- What a sweep through a root does not give. More weights than outputs are refused. And `2 ^ 31`
sums of the input with itself after the root are too many for the words of a tape, so the gradient
is zero, where the Jacobian is two. -/
theorem gradient_past_words :
    ∃ (equations before after : Function ℚ) (settings : Settings ℚ) (journal : Journal ℚ),
      ((weightedGradientThrough (.ofFunction equations) [1] {} settings before after [1]
        [1, 1]).run.run.run {}).1 = .error .weightCount ∧
      (weightedGradientThrough (.ofFunction equations) [1] {} settings before
        (.lastSum [.parameter 0] (2 ^ 31 - 1) 0 0) [1] [1]).run.run.run {} =
          (.ok (.ok ([2], [0])), ⟨none, journal⟩) ∧
      jacobian (fun xs => (Function.lastSum [.parameter 0] (2 ^ 31 - 1) 0 0).eval
        (M := Except Fault) { unknowns := [.constant (1 : ℚ)], parameters := xs }) [1] =
          .ok ([2], [[2]]) := by
  let equations : Function ℚ :=
    { program := [.unknown 0, .parameter 0, .operate .sub 0 1], outputs := [.always 2] }
  let before : Function ℚ := { program := [.constant 1], outputs := [.always 0] }
  let after : Function ℚ := { program := [.parameter 0], outputs := [.always 0] }
  let settings : Settings ℚ := { relativeTolerance := 1, functionTolerance := 1, budget := 2 }
  let parameters : List (Traced ℚ) := [Traced.constant 1]
  let root : List (Traced ℚ) := [Traced.constant 1]
  let start : Recorder ℚ := ⟨some (independents [1]).1, #[]⟩
  let toRoot := (solveTraced (.ofFunction equations) [1] parameters {} settings).run.run.run start
  have computed : (before.eval (M := RecordM ℚ) { unknowns := (independents [(1 : ℚ)]).2 }).run.run
      start = (.ok parameters, start) := rfl
  have solved : toRoot = (.ok (.ok root), toRoot.2) := Prod.ext (by decide +kernel) rfl
  have ran := weightedGradientThrough_lastSum (r := {}) computed rfl solved (n := 2 ^ 31 - 1)
    (by norm_num) one_ne_zero
  rw [one_add_one_eq_two] at ran
  refine ⟨equations, before, after, settings, toRoot.2.journal, by decide +kernel, ran, ?_⟩
  exact (jacobian_lastSum _ fun _ => rfl).trans (by rw [one_add_one_eq_two])

end Through

end ImplicitDiff.Solver
