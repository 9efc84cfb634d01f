import ImplicitDiff.Proofs.Dense.Matrix
import ImplicitDiff.Proofs.Program.Overflow

/-! # Forward and backward agree

The Jacobian is built column by column on dual numbers, a weighted sum of its rows by one sweep over
a recorded run. In exact arithmetic both give the same numbers, for every program that the words of
a tape can count and for all weights, and where one ends in a fault, so does the other. A program
that is too long for these words shows that the bound is needed.
-/

namespace ImplicitDiff

open scoped Matrix

variable {F : Type}

/-- The words of a tape can count what a program may record: one variable and two operands for each
instruction, besides the inputs. -/
structure Program.WithinWords (program : Program F) (inputs : Nat) : Prop where
  places : inputs + program.length < 2 ^ 32
  operands : 2 * program.length < 2 ^ 32

/-- The Jacobian of a function that gives values in every unit direction. -/
theorem jacobian_eq_pure [Arith F] {M : Type → Type} [Monad M] [LawfulMonad M]
    {f : List (Dual F) → M (List (Dual F))} {x : List F} {values : List (Dual F)}
    {columns : Nat → List (Dual F)} (plain : f (x.map Dual.constant) = pure values)
    (along : ∀ j < x.length, f (seededAt x j) = pure (columns j)) :
    jacobian f x = pure (values.map Dual.primal, (List.range values.length).map fun i =>
      (List.range x.length).map fun j => ((columns j).map Dual.tangent).getD i 0) := by
  have all : (List.range x.length).mapM (fun j => f (seededAt x j)) =
      pure ((List.range x.length).map columns) :=
    mapM_eq_pure fun j inside => along j (List.mem_range.mp inside)
  rw [jacobian, plain, pure_bind, all, pure_bind]
  simp only [List.map_map, List.getD_eq_getElem?_getD, List.getElem?_map]
  rfl

section Directions

variable [ExactField F] {f : List (Dual F) → Except Fault (List (Dual F))} {x : List F}
  {duals : (Nat → F) → List (Dual F)}

/-- The Jacobian of a function that gives values in every direction. -/
theorem jacobian_of_runs (runs : ∀ free, f (varied free x) = .ok (duals free)) :
    jacobian f x = .ok ((duals fun _ => 0).map Dual.primal,
      (List.range (duals fun _ => 0).length).map fun i => (List.range x.length).map fun j =>
        ((duals (Pi.single j 1)).map Dual.tangent).getD i 0) := by
  have plain := runs fun _ => 0
  rw [varied_zero] at plain
  have along (j : Nat) (_ : j < x.length) : f (seededAt x j) = .ok (duals (Pi.single j 1)) := by
    rw [← varied_single]
    exact runs _
  exact jacobian_eq_pure plain along

/-- The Jacobian as a matrix, column by column. -/
theorem matrix_of_jacobian (runs : ∀ free, f (varied free x) = .ok (duals free)) {values : List F}
    {rows : Rows F} (found : jacobian f x = .ok (values, rows)) :
    (duals fun _ => 0).map Dual.primal = values ∧
      Rows.matrix rows values.length x.length =
        .of fun i j => ((duals (Pi.single j 1)).map Dual.tangent).getD i 0 := by
  rw [jacobian_of_runs runs] at found
  obtain ⟨rfl, rfl⟩ := Prod.mk.inj (Except.ok.inj found)
  rw [List.length_map]
  exact ⟨rfl, matrix_of_range ..⟩

/-- A function that gives values of the same numbers in every direction has a Jacobian. -/
theorem exists_jacobian {values : List F} (each : ∀ free, ∃ duals, f (varied free x) = .ok duals ∧
    duals.map Dual.primal = values) : ∃ rows, jacobian f x = .ok (values, rows) := by
  choose duals runs same using each
  rw [jacobian_of_runs runs, same]
  exact ⟨_, rfl⟩

end Directions

section Run

variable {α : Type} {x : List F} {body : List (Traced F) → RecordM F α} {r : Recorder F}
  {journal : Journal F}

theorem recorded_eq (x : List F) (body : List (Traced F) → RecordM F α) (r : Recorder F) :
    (recorded x body).run.run r =
      let (result, inner) :=
        (body (independents x).2).run.run ⟨some (independents x).1, r.journal⟩
      (result.map fun a => (a, inner.tape.getD (independents x).1), { inner with tape := r.tape }) :=
  rfl

theorem recorded_of_ok {a : α} {t : Tape F}
    (ran : (body (independents x).2).run.run ⟨some (independents x).1, r.journal⟩ =
      (.ok a, ⟨some t, journal⟩)) :
    (recorded x body).run.run r = (.ok (a, t), ⟨r.tape, journal⟩) := by
  rw [recorded_eq, ran]
  rfl

theorem recorded_of_error {fault : Fault} {t : Option (Tape F)}
    (ended : (body (independents x).2).run.run ⟨some (independents x).1, r.journal⟩ =
      (.error fault, ⟨t, journal⟩)) :
    (recorded x body).run.run r = (.error fault, ⟨r.tape, journal⟩) := by
  rw [recorded_eq, ended]
  rfl

/-- A computation without effects leaves the recorder alone. -/
theorem RecordM.run_lift (result : Except Fault α) (r : Recorder F) :
    (liftM result : RecordM F α).run.run r = (result, r) := rfl

end Run

variable [ExactField F]

/-- A function runs on inputs that are recorded as it does on dual numbers in every direction. The
inputs may be arranged in any way that keeps the two apart. -/
theorem Function.recorded_eval (f : Function F) {x : List F} (fits : f.program.WithinWords x.length)
    {along : (Nat → F) → Inputs F (Dual F)} {given : Inputs F (Traced F)}
    (arranged : ∀ s free,
      List.Forall₂ (Recording.Follows free s) (varied free x) (independents x).2 →
      (along free).Related (Recording.Follows free s) given) :
    (∃ fault last, (∀ free, f.eval (M := Except Fault) (along free) = .error fault) ∧
      ∀ journal, (f.eval (M := RecordM F) given).run.run ⟨some (independents x).1, journal⟩ =
        (.error fault, ⟨last, journal⟩)) ∨
    ∃ outputs tape duals, (∀ free, f.eval (M := Except Fault) (along free) = .ok (duals free)) ∧
      (∀ journal, (f.eval (M := RecordM F) given).run.run ⟨some (independents x).1, journal⟩ =
        (.ok outputs, ⟨some tape, journal⟩)) ∧
      Covers x.length tape outputs duals := by
  obtain ⟨s, start, room, inputs, follows⟩ := exists_start fits.places fits.operands
  have enough : s.Room (f.program.length + 0) := room
  have runs (free : Nat → F) : Recording.Runs _ _ s (f.eval (M := Except Fault) (along free))
      (f.eval (M := RecordM F) given) :=
    (recording_respects free).function (arranged s free (follows free)) f
  obtain stopped | ⟨outputs, tape, ran, all⟩ :=
    Recording.Runs.share (fun _ => start) runs fun _ => enough
  · exact .inl stopped
  · choose duals t done same after left follow using all
    refine .inr ⟨outputs, tape, duals, done, ran, fun free => ?_⟩
    exact ⟨t free, same free, fun k input => (after free).origin (inputs k input), follow free⟩

/-- The Jacobian of a function whose outputs follow dual numbers in every direction. -/
theorem Covers.jacobian_eq {f : List (Dual F) → Except Fault (List (Dual F))} {x : List F}
    {tape : Tape F} {outputs : List (Traced F)} {duals : (Nat → F) → List (Dual F)}
    (covers : Covers x.length tape outputs duals)
    (runs : ∀ free, f (varied free x) = .ok (duals free)) :
    jacobian f x = .ok (outputs.map Traced.value, (List.range outputs.length).map fun i =>
      (List.range x.length).map fun j =>
        ((duals (Pi.single j 1)).map Dual.tangent).getD i 0) := by
  rw [jacobian_of_runs runs, covers.values_eq, covers.length_eq]

/-- One sweep gives the product of the weights with the matrix of the tangents. -/
theorem Covers.pullBack_eq_vecMul {n : Nat} {tape : Tape F} {outputs : List (Traced F)}
    {duals : (Nat → F) → List (Dual F)} (covers : Covers n tape outputs duals) {weights : List F}
    (fit : outputs.length = weights.length) :
    pullBack tape n outputs weights = .ok (List.ofFn (vector weights outputs.length ᵥ*
      Rows.matrix ((List.range outputs.length).map fun i => (List.range n).map fun j =>
        ((duals (Pi.single j 1)).map Dual.tangent).getD i 0) outputs.length n)) := by
  rw [covers.pullBack_eq fit, matrix_of_range]
  congr 1
  apply List.ext_getElem
  · simp
  · intro j _ _
    rw [List.getElem_map, List.getElem_range, List.getElem_ofFn,
      sum_zip_eq _ _ Dual.tangent (covers.length_eq (Pi.single j 1))]
    rfl

private theorem sum_zip_one (duals : List (Dual F)) :
    ((duals.zip [1]).map fun (d, w) => w * d.tangent).sum =
      (duals.map Dual.tangent).getD 0 0 := by
  cases duals with
  | nil => rfl
  | cons d _ => simp

/-- The sweep from the first output gives its tangents in all unit directions, and without a sweep
they are zero for a constant. -/
theorem Covers.run_gradient {n : Nat} {tape : Tape F} {a : Traced F} {rest : List (Traced F)}
    {duals : (Nat → F) → List (Dual F)} (covers : Covers n tape (a :: rest) duals)
    (r : Recorder F) :
    (if a.isTracked then do
        let adjoints ← (tape.sweepFrom a.index : Except Fault (Array F))
        return adjoints.toList.take n
      else return List.replicate n 0 : RecordM F (List F)).run.run r =
      (.ok ((List.range n).map fun j =>
        ((duals (Pi.single j 1)).map Dual.tangent).getD 0 0), r) := by
  split_ifs with tracked
  · obtain ⟨adjoints, swept, enough, entry, -⟩ := covers.exists_adjoints [1]
    simp only [sum_zip_one] at entry
    have entries := List.map_congr_left fun j input => entry j (List.mem_range.mp input)
    have seeds : seedsOf (a :: rest) [(1 : F)] = [(a.index, 1)] := by simp [seedsOf, tracked]
    have ran : (liftM (tape.sweepFrom a.index) : RecordM F (Array F)).run.run r =
        (.ok adjoints, r) := by
      rw [RecordM.run_lift, Tape.sweepFrom, ← seeds, swept]
    rw [← entries, ← take_toList enough]
    exact run_bind_of_ok ran
  · have fixed : a.index = Index.constant := by simpa [Traced.isTracked] using tracked
    have still (j : Nat) : ((duals (Pi.single j 1)).map Dual.tangent).getD 0 0 = 0 := by
      obtain ⟨t, -, -, follow⟩ := covers (Pi.single j 1)
      cases found : duals (Pi.single j 1) with
      | nil => rfl
      | cons d _ =>
        rw [found] at follow
        cases follow with
        | cons here _ => exact here.tangent.trans (if_pos fixed)
    simp only [still, List.map_const', List.length_range]
    rfl

/-- **Forward and backward agree.** For every program within the words of a tape and all weights the
sweep gives the values and the weighted sum of the rows of the Jacobian, and for its first output
the first row. Where the forward mode ends in a fault, so does the backward mode. The recorder is as
it was. -/
theorem backward_eq_forward (f : Function F) (x : List F) (fits : f.program.WithinWords x.length)
    (r : Recorder F) :
    (∀ weights, (weightedGradient (fun inputs => f.eval { unknowns := inputs }) x weights).run.run r =
      (jacobian (fun inputs => f.eval { unknowns := inputs }) x >>= fun (values, rows) =>
        if values.length = weights.length then
          .ok (values, List.ofFn
            (vector weights values.length ᵥ* Rows.matrix rows values.length x.length))
        else .error .weightCount, r)) ∧
    (gradient (fun inputs => do
        let outputs ← f.eval (M := RecordM F) { unknowns := inputs }
        fetch outputs[0]?) x).run.run r =
      (jacobian (fun inputs => f.eval { unknowns := inputs }) x >>= fun (_, rows) =>
        fetch rows[0]?, r) := by
  have arranged (s : Recording F) (free : Nat → F)
      (follow : List.Forall₂ (Recording.Follows free s) (varied free x) (independents x).2) :
      ({ unknowns := varied free x } : Inputs F (Dual F)).Related (Recording.Follows free s)
        { unknowns := (independents x).2 } := ⟨follow, .nil, rfl, rfl⟩
  obtain ⟨fault, last, failed, ended⟩ | ⟨outputs, tape, duals, runs, ran, covers⟩ :=
    f.recorded_eval fits arranged
  · have forward : jacobian (fun inputs => f.eval (M := Except Fault) { unknowns := inputs }) x =
        .error fault := by
      rw [jacobian, ← varied_zero, failed]
      rfl
    rw [forward]
    constructor
    · intro weights
      exact run_bind_of_error (recorded_of_error (ended _))
    · have first := run_bind_of_error (f := fun outputs => fetch outputs[0]?)
        (ended r.journal)
      exact run_bind_of_error (recorded_of_error first)
  · rw [covers.jacobian_eq runs]
    constructor
    · intro weights
      refine (run_bind_of_ok (recorded_of_ok (ran _))).trans ?_
      change _ = ((if _ then _ else _ : Except Fault (List F × List F)), r)
      rw [List.length_map]
      split_ifs with fit
      · have swept := covers.pullBack_eq_vecMul fit
        exact run_bind_of_ok ((RecordM.run_lift _ r).trans (congrArg (·, r) swept))
      · have counted : pullBack tape x.length outputs weights = .error .weightCount := if_pos fit
        exact run_bind_of_error ((RecordM.run_lift _ r).trans (congrArg (·, r) counted))
    · cases outputs with
      | nil =>
        have first := run_bind_of_ok (f := fun outputs => fetch outputs[0]?)
          (ran r.journal)
        exact run_bind_of_error (recorded_of_error first)
      | cons a rest =>
        have first := run_bind_of_ok (f := fun outputs => fetch outputs[0]?)
          (ran r.journal)
        refine (run_bind_of_ok (recorded_of_ok first)).trans ?_
        refine (covers.run_gradient r).trans ?_
        rw [List.length_cons, List.range_succ_eq_map]
        rfl

/-- A shared register, a quotient, a detached factor, a branch and a constant output. -/
theorem backward_eq_forward_with_branch :
    ∃ f : Function ℚ, f.program.WithinWords 2 ∧
      (weightedGradient (fun inputs => f.eval { unknowns := inputs }) ([2, 5] : List ℚ)
        [1, -1, 3, 7]).run.run {} = (.ok ([10, 2, 20, 2], [34, 14]), {}) ∧
      (gradient (fun inputs => do
        let outputs ← f.eval (M := RecordM ℚ) { unknowns := inputs }
        fetch outputs[0]?) ([2, 5] : List ℚ)).run.run {} = (.ok [5, 2], {}) := by
  let f : Function ℚ :=
    { program := [.unknown 0, .unknown 1, .operate .mul 0 1, .operate .div 2 1, .detach 3,
        .operate .mul 4 2, .operateLeft .div 20 1, .select .less 0 1 3 6]
      outputs := [.always 2, .always 7, .whenLess 0 1 5, .always 4] }
  have fits : f.program.WithinWords 2 := ⟨by decide, by decide⟩
  obtain ⟨weighted, first⟩ := backward_eq_forward f [2, 5] fits {}
  refine ⟨f, fits, (weighted _).trans (congrArg (·, _) ?_), first.trans (congrArg (·, _) ?_)⟩
  · decide +kernel
  · decide +kernel

/-- Forward, the last of many sums of the only input with itself has the slope two. -/
theorem jacobian_lastSum (n : Nat) {c : F} {given : List (Dual F) → Inputs F (Dual F)}
    {i : Instruction F} (read : ∀ free,
      Program.run (M := Except Fault) (given (varied free [c])) [i] = pure #[⟨c, free 0⟩]) :
    jacobian (fun inputs => (Function.lastSum [i] n 0 0).eval (given inputs)) [c] =
      .ok ([c + c], [[1 + 1]]) := by
  have runs (free : Nat → F) : (Function.lastSum [i] n 0 0).eval (M := Except Fault)
      (given (varied free [c])) = .ok [⟨c + c, free 0 + free 0⟩] :=
    Function.eval_lastSum (i := 0) _ (read free) rfl rfl rfl n
  rw [jacobian_of_runs runs]
  simp [Pi.single_eq_same]

/-- On a tape, the `2 ^ 31`-st sum of the only input has none. -/
theorem Function.eval_lastSum_of_one {n : Nat} (full : 2 * (n + 1) = 2 ^ 32) {c : F}
    {inputs : Inputs F (Traced F)} {i : Instruction F}
    (read : (Program.run inputs [i] : RecordM F (Array (Traced F))) = pure #[⟨c, 0⟩]) :
    ∃ output tape, output.value = c + c ∧
      (∀ journal, ((lastSum [i] n 0 0).eval inputs : RecordM F (List (Traced F))).run.run
        ⟨some (independents [c]).1, journal⟩ = (.ok [output], ⟨some tape, journal⟩)) ∧
      ∀ w : F, w ≠ 0 → pullBack tape 1 [output] [w] = .ok [0] := by
  obtain ⟨s, start, blank, layout, -⟩ := exists_inputs [c] (by simp)
  have one : s.tape.size.toNat = 1 := by
    rw [s.recorded.size_eq, layout, List.length_replicate, List.length_singleton]
  have below : (0 : Index) < s.tape.size := UInt32.lt_iff_toNat_lt.mpr (one ▸ Nat.zero_lt_one)
  have started (journal : Journal F) : (Program.run inputs [i] : RecordM F _).run.run
      ⟨some s.tape, journal⟩ = (.ok #[⟨c, 0⟩], ⟨some s.tape, journal⟩) := by
    rw [read]
    rfl
  obtain ⟨output, tape, value, ran, swept⟩ :=
    Function.eval_lastSum_of_full (i := 0) _ started rfl rfl below blank full (by omega) (by simp)
  rw [start] at ran
  exact ⟨output, tape, value, ran, fun w seen => swept w (by simpa using seen) 1 one.ge⟩

private theorem weightedGradient_lastSum {n : Nat} (full : 2 * (n + 1) = 2 ^ 32) (c : F) {w : F}
    (seen : w ≠ 0) (r : Recorder F) :
    (weightedGradient (fun inputs => (Function.lastSum [.unknown 0] n 0 0).eval
      { unknowns := inputs }) [c] [w]).run.run r = (.ok ([c + c], [0]), r) := by
  have read : Program.run (M := RecordM F) { unknowns := (independents [c]).2 } [.unknown 0] =
      pure #[⟨c, 0⟩] := rfl
  obtain ⟨⟨_, i⟩, tape, rfl, ran, swept⟩ := Function.eval_lastSum_of_one full read
  refine (run_bind_of_ok (recorded_of_ok (ran r.journal))).trans ?_
  exact run_bind_of_ok (f := fun gradient => pure ([c + c], gradient))
    ((RecordM.run_lift _ r).trans (congrArg (·, r) (swept w seen)))

/-- What a sweep does not give. A program that reads past its inputs ends in a fault. And `2 ^ 31`
sums of the input with itself are too many for the words of a tape: no fault tells of it, but the
sweep loses the slope that the Jacobian has. -/
theorem backward_past_words :
    (weightedGradient (fun inputs => Function.eval ⟨[.unknown 0, .unknown 1], [.always 0]⟩
      { unknowns := inputs }) ([1] : List ℚ) [1]).run.run {} = (.error .indexOutOfBounds, {}) ∧
    jacobian (fun inputs => (Function.lastSum [.unknown 0] (2 ^ 31 - 1) 0 0).eval
      { unknowns := inputs }) ([1] : List ℚ) = .ok ([2], [[2]]) ∧
    (weightedGradient (fun inputs => (Function.lastSum [.unknown 0] (2 ^ 31 - 1) 0 0).eval
      { unknowns := inputs }) ([1] : List ℚ) [1]).run.run {} = (.ok ([2], [0]), {}) := by
  refine ⟨rfl, ?_, ?_⟩
  · exact (jacobian_lastSum _ fun _ => rfl).trans (by rw [one_add_one_eq_two])
  · rw [weightedGradient_lastSum (by norm_num) 1 one_ne_zero, one_add_one_eq_two]

end ImplicitDiff
