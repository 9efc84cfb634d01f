import ImplicitDiff.Proofs.Program.Values
import ImplicitDiff.Proofs.Solver.Sensitivity

/-! # Quotients tell plain numbers from the others

Dual and traced numbers divide by the reciprocal, plain numbers divide at once, and this is the only
place where their values may part. In a field both ways to divide give the same; machine floats may
round them to different neighbours, and a selection that follows may then take another register. A
residual is evaluated on dual numbers, so the same function on plain numbers may give another value.
The runs show the same if every quotient of the plain run is the product with the reciprocal, and
only then.
-/

namespace ImplicitDiff

variable {F : Type} [Arith F]

/-- Whether a quotient that an instruction forms is the product with the reciprocal. -/
def Instruction.DividesAlike (registers : Array F) : Instruction F → Prop
  | .operate .div a b => ∀ x ∈ registers[a]?, ∀ y ∈ registers[b]?, x / y = x * (1 / y)
  | _ => True

/-- Whether every quotient in a plain run from given registers is the product with the reciprocal.
-/
def Program.DividesAlikeFrom (inputs : Inputs F F) : Array F → Program F → Prop
  | _, [] => True
  | registers, i :: rest => i.DividesAlike registers ∧
    match (i.eval inputs registers : Except Fault F) with
    | .ok c => DividesAlikeFrom inputs (registers.push c) rest
    | .error _ => True

/-- Whether every quotient in a plain run is the product with the reciprocal. -/
def Program.DividesAlike (inputs : Inputs F F) (program : Program F) : Prop :=
  program.DividesAlikeFrom inputs #[]

/-- A program divides alike if its instructions do whatever the registers are. -/
theorem Program.dividesAlike_of_forall {inputs : Inputs F F} {program : Program F}
    (each : ∀ i ∈ program, ∀ registers, i.DividesAlike registers) :
    program.DividesAlike inputs := by
  suffices ∀ registers, program.DividesAlikeFrom inputs registers from this #[]
  induction program with
  | nil => exact fun _ => trivial
  | cons i rest ih =>
    rw [List.forall_mem_cons] at each
    intro registers
    refine ⟨each.1 registers, ?_⟩
    split
    · exact ih each.2 _
    · trivial

/-- Without quotients there is nothing to round in two ways, in any arithmetic. -/
theorem Program.dividesAlike_of_no_quotient {program : Program F}
    (none : ∀ a b, .operate .div a b ∉ program) (inputs : Inputs F F) :
    program.DividesAlike inputs := by
  refine dividesAlike_of_forall fun i member registers => ?_
  unfold Instruction.DividesAlike
  split
  · exact absurd member (none _ _)
  · trivial

/-- In a field every quotient is the product with the reciprocal. -/
theorem Program.dividesAlike_of_field {F : Type} [ExactField F] (inputs : Inputs F F)
    (program : Program F) : program.DividesAlike inputs := by
  refine dividesAlike_of_forall fun i _ registers => ?_
  unfold Instruction.DividesAlike
  split
  · exact fun x _ y _ => div_eq_mul_one_div x y
  · trivial

namespace ViaReciprocal

/-- The register that an instruction defines if quotients are products with the reciprocal. -/
def eval (inputs : Inputs F F) (registers : Array F) (i : Instruction F) : Except Fault F :=
  i.eval (T := ViaReciprocal F) inputs registers

/-- The run from given registers in which quotients are products with the reciprocal. -/
def runFrom (inputs : Inputs F F) (registers : Array F) (program : Program F) :
    Except Fault (Array F) :=
  Program.runFrom (T := ViaReciprocal F) inputs registers program

/-- What a run shows in which quotients are products with the reciprocal. -/
def observe (f : Function F) (inputs : Inputs F F) : Except Fault (Observation F) :=
  f.observe (T := ViaReciprocal F) inputs

theorem runFrom_cons (inputs : Inputs F F) (registers : Array F) (i : Instruction F)
    (rest : Program F) :
    runFrom inputs registers (i :: rest) =
      eval inputs registers i >>= fun c => runFrom inputs (registers.push c) rest :=
  Program.runFrom_cons (T := ViaReciprocal F) ..

/-- Only a quotient can tell the two ways to divide apart, and it does unless both give the same. -/
theorem eval_eq_iff {inputs : Inputs F F} {registers : Array F} {i : Instruction F}
    (unmixed : i.isUnmixed = true) :
    eval inputs registers i = i.eval inputs registers ↔ i.DividesAlike registers := by
  cases i with
  | operateRight => cases unmixed
  | operateLeft => cases unmixed
  | operate o a b =>
    cases o with
    | div =>
      change (fetch registers[a]? >>= fun x => fetch registers[b]? >>= fun y =>
            (pure (x * (1 / y)) : Except Fault F)) =
          (fetch registers[a]? >>= fun x => fetch registers[b]? >>= fun y => pure (x / y)) ↔
        ∀ x ∈ registers[a]?, ∀ y ∈ registers[b]?, x / y = x * (1 / y)
      generalize registers[a]? = left, registers[b]? = right
      cases left with
      | none => exact iff_of_true rfl fun _ none => (nomatch none)
      | some x =>
        cases right with
        | none => exact iff_of_true rfl fun _ _ _ none => (nomatch none)
        | some y =>
          simp only [Option.mem_def, Option.some.injEq, forall_eq']
          exact ⟨fun same => (Except.ok.inj same).symm, fun same => congrArg Except.ok same.symm⟩
    | _ => exact iff_of_true rfl trivial
  | _ => exact iff_of_true rfl trivial

private theorem runFrom_eq {inputs : Inputs F F} {program : Program F}
    (unmixed : ∀ i ∈ program, i.isUnmixed = true) {registers : Array F}
    (alike : program.DividesAlikeFrom inputs registers) :
    runFrom inputs registers program = Program.runFrom inputs registers program := by
  induction program generalizing registers with
  | nil => rfl
  | cons i rest ih =>
    obtain ⟨here, onward⟩ := alike
    rw [List.forall_mem_cons] at unmixed
    rw [runFrom_cons, Program.runFrom_cons, (eval_eq_iff unmixed.1).mpr here]
    cases first : (i.eval inputs registers : Except Fault F) with
    | error fault => rfl
    | ok c =>
      rw [first] at onward
      exact ih unmixed.2 onward

/-- Runs that end with the same registers divided alike all along, because no register is written
twice. -/
theorem dividesAlikeFrom_of_runFrom {inputs : Inputs F F} {program : Program F}
    (unmixed : ∀ i ∈ program, i.isUnmixed = true) {registers last : Array F}
    (ran : Program.runFrom inputs registers program = .ok last)
    (same : runFrom inputs registers program = .ok last) :
    program.DividesAlikeFrom inputs registers := by
  induction program generalizing registers with
  | nil => trivial
  | cons i rest ih =>
    rw [List.forall_mem_cons] at unmixed
    rw [Program.runFrom_cons] at ran
    rw [runFrom_cons] at same
    obtain ⟨c, first, ran⟩ := except_bind_eq_ok_iff.mp ran
    obtain ⟨d, other, same⟩ := except_bind_eq_ok_iff.mp same
    have equal : some c = some d :=
      (Program.getElem?_of_runFrom ran Array.getElem?_push_size).symm.trans
        (Program.getElem?_of_runFrom (T := ViaReciprocal F) same Array.getElem?_push_size)
    cases equal
    refine ⟨(eval_eq_iff unmixed.1).mp (other.trans first.symm), ?_⟩
    rw [first]
    exact ih unmixed.2 ran same

end ViaReciprocal

namespace Solver.Restriction

/-- The inputs of the equations at a value of the free argument. -/
def inputs (r : Restriction F) (x : List F) : Inputs F F :=
  match r.free with
  | .unknowns =>
    { unknowns := x, parameters := r.fixed, reals := r.data.reals, integers := r.data.integers }
  | .parameters =>
    { unknowns := r.fixed, parameters := x, reals := r.data.reals, integers := r.data.integers }

/-- A residual is evaluated on dual numbers without a tangent. -/
theorem residual_ofFunction {r : Restriction F} {f : Function F}
    (program : r.equations = .ofFunction f) (x : List F) :
    ∃ duals, (r.inputs x).Related (fun c d => d.primal = c) duals ∧
      ∀ journal, ((r.residual x).run.run journal).1 =
        List.map Dual.primal <$> (f.eval duals : Except Fault (List (Dual F))) := by
  obtain ⟨_, data, free, fixed⟩ := r
  cases program
  have constants (items : List F) :
      List.Forall₂ (fun c (d : Dual F) => d.primal = c) items (items.map Dual.constant) := by
    rw [List.forall₂_map_right_iff]
    exact List.forall₂_same.mpr fun _ _ => rfl
  cases free with
  | unknowns =>
    obtain ⟨_, ran⟩ := residual_endsIn ⟨.ofFunction f, data, .unknowns, fixed⟩ x
    exact ⟨⟨_, _, _, _⟩, ⟨constants x, constants fixed, rfl, rfl⟩,
      fun journal => congrArg Prod.fst (ran journal)⟩
  | parameters =>
    obtain ⟨_, ran⟩ := residual_endsIn ⟨.ofFunction f, data, .parameters, fixed⟩ x
    exact ⟨⟨_, _, _, _⟩, ⟨constants fixed, constants x, rfl, rfl⟩,
      fun journal => congrArg Prod.fst (ran journal)⟩

end Solver.Restriction

/-- What a run that succeeds shows are the registers at its end. -/
theorem Function.exists_run_of_observe {T : Type} [Carrier F T (Except Fault)] {f : Function F}
    {inputs : Inputs F T} {o : Observation F} (shown : f.observe inputs = .ok o) :
    ∃ last : Array T, f.program.run inputs = .ok last ∧
      last.toList.map Carrier.value = o.registers := by
  obtain ⟨last, ran, shown⟩ := except_bind_eq_ok_iff.mp shown
  obtain ⟨outputs, -, shown⟩ := except_bind_eq_ok_iff.mp shown
  cases shown
  exact ⟨last, ran, rfl⟩

namespace ViaReciprocal

variable {f : Function F} {inputs : Inputs F F}

private theorem observe_eq (unmixed : f.program.all Instruction.isUnmixed = true)
    (alike : f.program.DividesAlike inputs) : f.observe inputs = observe f inputs := by
  have same := runFrom_eq (List.all_eq_true.mp unmixed) alike
  exact congrArg (fun run : Except Fault (Array F) => run >>= f.view) same.symm

private theorem dividesAlike_of_observe (unmixed : f.program.all Instruction.isUnmixed = true)
    {o : Observation F} (shown : f.observe inputs = .ok o) (same : observe f inputs = .ok o) :
    f.program.DividesAlike inputs := by
  obtain ⟨last, ran, values⟩ := Function.exists_run_of_observe shown
  obtain ⟨other, went, others⟩ := Function.exists_run_of_observe (T := ViaReciprocal F) same
  have equal : last = other := Array.toList_inj.mp <|
    (List.map_id _).symm.trans (values.trans (others.symm.trans (List.map_id _)))
  subst equal
  exact dividesAlikeFrom_of_runFrom (List.all_eq_true.mp unmixed) ran went

end ViaReciprocal

/-- All runs of a function show `seen`, plain ones if they divide as the others do. -/
structure Function.Shows (f : Function F) (inputs : Inputs F F) (duals : Inputs F (Dual F))
    (traced : Inputs F (Traced F)) (recorder : Recorder F) (seen : Except Fault (Observation F)) :
    Prop where
  /-- The run on dual numbers, whatever their tangents are. -/
  duals : f.observe duals = seen
  /-- The run on traced numbers, whichever of them are constants and whatever is on the tape. -/
  traced : ((f.observe traced).run.run recorder).1 = seen
  /-- The residual of the equations that the function defines. -/
  residual (r : Solver.Restriction F) (x : List F) (journal : Journal F) :
    r.equations = .ofFunction f → r.inputs x = inputs →
    ((r.residual x).run.run journal).1 = Observation.outputs <$> seen
  /-- The run on plain numbers, if it divides as the others do. -/
  plain : f.program.DividesAlike inputs → f.observe inputs = seen
  /-- Nothing less will do: a plain run that shows the same divides as the others do. -/
  alike (o : Observation F) :
    f.observe inputs = .ok o → seen = .ok o → f.program.DividesAlike inputs

/-- **One definition, one arithmetic**, except for quotients. Runs on dual and on traced numbers,
and residuals too, show to the last bit what plain numbers show that divide by the reciprocal. A run
on plain numbers that divide at once shows the same exactly where this makes no difference. -/
theorem Function.shows_viaReciprocal {f : Function F}
    (unmixed : f.program.all Instruction.isUnmixed = true) {inputs : Inputs F F}
    {duals : Inputs F (Dual F)} (values : inputs.Related (fun c d => d.primal = c) duals)
    {traced : Inputs F (Traced F)} {recorder : Recorder F}
    (holds : inputs.Related (Traced.Holds recorder.tape.isSome) traced) :
    f.Shows inputs duals traced recorder (ViaReciprocal.observe f inputs) where
  duals := eq_of_sideBySide (sideBySide_respectsUnmixed.observe (s := ()) values unmixed)
  traced := eq_of_besideRecorder (besideRecorder_respectsUnmixed.observe holds unmixed)
  residual r x journal program here := by
    obtain ⟨constants, still, ran⟩ := Solver.Restriction.residual_ofFunction program x
    rw [here] at still
    have shown := eq_of_sideBySide (sideBySide_respectsUnmixed.observe (s := ()) still unmixed)
    rw [ran, ViaReciprocal.observe, ← shown]
    exact (f.outputs_observe constants).symm
  plain := ViaReciprocal.observe_eq unmixed
  alike _ := ViaReciprocal.dividesAlike_of_observe unmixed

/-- A quotient, and the smaller one of its operands unless it is below five thirds. -/
def ratio : Function Float where
  program := [.unknown 0, .parameter 0, .operate .div 0 1, .constant (5 / 3),
    .select .less 2 3 0 1]
  outputs := [.always 2, .always 4]

/-- Six halves are six times a half on machine floats too. -/
theorem Function.shows_viaReciprocal_of_six_halves :
    ratio.program.DividesAlike { unknowns := [(6 : Float)], parameters := [2] } ∧
      ratio.Shows { unknowns := [6], parameters := [2] }
        { unknowns := [⟨6, 7⟩], parameters := [⟨2, -1⟩] }
        { unknowns := [⟨6, 0⟩], parameters := [.constant 2] } { tape := some { size := 1 } }
        (ViaReciprocal.observe ratio { unknowns := [(6 : Float)], parameters := [2] }) := by
  have unmixed : ratio.program.all Instruction.isUnmixed = true := rfl
  refine ⟨⟨trivial, trivial, ?_, trivial, trivial, trivial⟩, shows_viaReciprocal unmixed ?_ ?_⟩
  · rintro _ ⟨⟩ _ ⟨⟩
    decide +kernel
  · exact ⟨.cons rfl .nil, .cons rfl .nil, rfl, rfl⟩
  · exact ⟨.cons ⟨rfl, .inl rfl⟩ .nil, .cons ⟨rfl, .inl rfl⟩ .nil, rfl, rfl⟩

/-- Five thirds are not five times a third on machine floats: the residual is one bit below the
plain value, and the selection takes the other register. -/
theorem ratio_of_five_thirds :
    (((Solver.Equations.ofFunction ratio).atParameters {} [3]).residual [5] |>.run.run #[]).1.map
        (List.map Float.toBits) = .ok [0x3FFAAAAAAAAAAAAA, 0x4014000000000000] ∧
      (ratio.eval (M := Except Fault) { unknowns := [(5 : Float)], parameters := [3] }).map
        (List.map Float.toBits) = .ok [0x3FFAAAAAAAAAAAAB, 0x4008000000000000] := by
  decide +kernel

end ImplicitDiff
