import ImplicitDiff.Proofs.Derivative.Agreement
import ImplicitDiff.Proofs.Derivative.Expansion
import ImplicitDiff.Proofs.Program.Lifting

/-! # The Jacobian is the derivative

A program of field operations, integer powers, magnitudes and branches has a derivative where it
divides by no zero, takes no magnitude of zero and compares no equal numbers. Nothing of this
changes near such a point, so every branch stays the one taken, and the tangents of dual numbers are
the linear terms of the plain runs. Square roots and exponentials have no laws here and stay out, as
do detached numbers, whose tangents are cut off on purpose.
-/

namespace ImplicitDiff

section Regular

variable {F : Type} [Arith F]

/-- Whether an operation is defined with `b` on the right. -/
def Operation.isDefined : Operation → F → Bool
  | .div, b => b != 0
  | _, _ => true

/-- Whether a function is one of those that ordered fields have. -/
def Elementary.isAlgebraic : Elementary F → Bool
  | .abs | .powInt _ => true
  | _ => false

/-- Whether an algebraic function is defined around `x` and has a slope there that can be computed,
which takes an exponent below the one of a power. -/
def Elementary.isSmooth : Elementary F → F → Bool
  | .abs, x => x != 0
  | .powInt n, x => n != -2 ^ 31 && (decide (1 ≤ n) || x != 0)
  | _, _ => true

/-- Whether an instruction is algebraic and passes tangents on. -/
def Instruction.isAlgebraic : Instruction F → Bool
  | .detach _ => false
  | .elementary f _ => f.isAlgebraic
  | _ => true

/-- Whether an algebraic instruction is smooth at the registers before it. A branch is if the
comparison is between two different numbers. -/
def Instruction.isRegular (registers : Array F) : Instruction F → Bool
  | .elementary f a => registers[a]?.all f.isSmooth
  | .operate o _ b => registers[b]?.all o.isDefined
  | .operateRight o _ c => o.isDefined c
  | .operateLeft o _ a => registers[a]?.all o.isDefined
  | .select _ a b _ _ => registers[a]?.all fun left => registers[b]?.all (left != ·)
  | _ => true

/-- Whether each instruction is smooth at the registers that it finds in a run from given ones. -/
def Program.isRegularFrom (inputs : Inputs F F) : Array F → Program F → Bool
  | _, [] => true
  | registers, i :: rest =>
    i.isRegular registers &&
      match (i.eval inputs registers : Except Fault F) with
      | .ok c => isRegularFrom inputs (registers.push c) rest
      | .error _ => true

/-- Whether a plain run meets no zero divisor, no kink and no comparison of equal numbers. -/
def Program.isRegular (inputs : Inputs F F) (program : Program F) : Bool :=
  program.isRegularFrom inputs #[]

/-- Whether the output is there whatever the registers are. -/
def Output.isFixed : Output → Bool
  | .always _ => true
  | .whenLess .. => false

end Regular

variable {F : Type} [ExactOrderedField F]

namespace Expands

variable {f g : F → F} {a b : Dual F}

theorem operate (o : Operation) (left : Expands f a) (right : Expands g b)
    (defined : o.isDefined (g 0) = true) :
    Expands (fun h => o.value (f h) (g h)) (Dual.operate o a b) := by
  cases o with
  | add => exact left.add right
  | sub => exact left.sub right
  | mul => exact left.mul right
  | div => exact left.div right (right.at_zero ▸ bne_iff_ne.mp defined)

theorem elementary {e : Elementary F} (algebraic : e.isAlgebraic = true) (expands : Expands g a)
    (smooth : e.isSmooth (g 0) = true) : Expands (fun h => e.value (g h)) (a.elementary e) := by
  rw [expands.at_zero] at smooth
  cases e with
  | abs =>
    refine (expands.abs (bne_iff_ne.mp smooth)).congr (.of_forall fun h => ?_) ?_ rfl
    · exact ExactOrderedField.abs_eq _
    · exact ExactOrderedField.abs_eq _
  | powInt n =>
    obtain ⟨least, smooth⟩ := (Bool.and_eq_true ..).mp smooth
    have base : 1 ≤ n ∨ a.primal ≠ 0 :=
      (Bool.or_eq_true _ _ ▸ smooth).imp of_decide_eq_true bne_iff_ne.mp
    refine (expands.zpow base).congr (.of_forall fun h => Arith.powInt_eq _ _)
      (Arith.powInt_eq _ _) ?_
    change a.tangent * ((n : F) * Arith.powInt a.primal (Elementary.exponentBelow n)) = _
    have below : Elementary.exponentBelow n = n - 1 := if_neg (bne_iff_ne.mp least)
    rw [Arith.powInt_eq, below]
  | _ => cases algebraic

theorem isDefined_near (o : Operation) (expands : Expands g a)
    (defined : o.isDefined (g 0) = true) : Near fun h => o.isDefined (g h) = true := by
  cases o with
  | div =>
    have nonzero : a.primal ≠ 0 := expands.at_zero ▸ bne_iff_ne.mp defined
    exact (expands.ne_zero nonzero).mono fun h => bne_iff_ne.mpr
  | _ => exact .of_forall fun _ => rfl

private theorem isSmooth_near (e : Elementary F) (expands : Expands g a)
    (smooth : e.isSmooth (g 0) = true) : Near fun h => e.isSmooth (g h) = true := by
  have start := expands.at_zero
  cases e with
  | abs => exact (expands.ne_zero (start ▸ bne_iff_ne.mp smooth)).mono fun h => bne_iff_ne.mpr
  | powInt n =>
    obtain ⟨least, smooth⟩ := (Bool.and_eq_true ..).mp smooth
    obtain positive | nonzero := Bool.or_eq_true _ _ ▸ smooth
    · exact .of_forall fun h =>
        (Bool.and_eq_true ..).mpr ⟨least, (Bool.or_eq_true _ _).mpr (.inl positive)⟩
    · refine (expands.ne_zero (start ▸ bne_iff_ne.mp nonzero)).mono fun h apart => ?_
      exact (Bool.and_eq_true ..).mpr
        ⟨least, (Bool.or_eq_true _ _).mpr (.inr (bne_iff_ne.mpr apart))⟩
  | _ => exact .of_forall fun _ => rfl

/-- A comparison of two different numbers has the same outcome near them. -/
theorem holds_near (test : Comparison) (left : Expands f a) (right : Expands g b)
    (differ : f 0 ≠ g 0) : Near fun h => test.holds (f h) (g h) = test.holds a.primal b.primal := by
  rw [left.at_zero, right.at_zero] at differ
  cases test with
  | less =>
    obtain below | above := lt_or_gt_of_ne differ
    · refine (left.lt right below).mono fun h less => ?_
      exact (decide_eq_true less).trans (decide_eq_true below).symm
    · refine (right.lt left above).mono fun h less => ?_
      exact (decide_eq_false less.not_gt).trans (decide_eq_false above.not_gt).symm
  | equal =>
    refine (left.ne right differ).mono fun h apart => ?_
    exact (beq_false_of_ne apart).trans (beq_false_of_ne differ).symm

end Expands

section Moves

variable {α β γ δ : Type}

/-- If a run that moves with one parameter succeeds at zero, then also near zero, and so does the
run on dual numbers, with a result to which `related` relates those of the former. -/
def Moves (related : (F → α) → β → Prop) (m : F → Except Fault α) (n : Except Fault β) : Prop :=
  ∀ a, m 0 = .ok a → ∃ g b, n = .ok b ∧ related g b ∧ Near fun h => m h = .ok (g h)

namespace Moves

variable {related : (F → α) → β → Prop} {after : (F → γ) → δ → Prop} {m k : F → Except Fault α}
  {n : Except Fault β}

theorem pure {g : F → α} {b : β} (here : related g b) :
    Moves related (fun h => .ok (g h)) (.ok b) :=
  fun _ _ => ⟨g, b, rfl, here, .of_forall fun _ => rfl⟩

theorem congr (moves : Moves related m n) (same : Near fun h => k h = m h) :
    Moves related k n := by
  intro a ran
  obtain ⟨g, b, done, here, near⟩ := moves a (same.at_zero.symm.trans ran)
  exact ⟨g, b, done, here, (same.and near).mono fun h both => both.1.trans both.2⟩

theorem imp {wider : (F → α) → β → Prop} (moves : Moves related m n)
    (wide : ∀ g b, related g b → wider g b) : Moves wider m n := by
  intro a ran
  obtain ⟨g, b, done, here, near⟩ := moves a ran
  exact ⟨g, b, done, wide g b here, near⟩

theorem bind {f : F → α → Except Fault γ} {d : β → Except Fault δ} (first : Moves related m n)
    (next : ∀ g b, related g b → Moves after (fun h => f h (g h)) (d b)) :
    Moves after (fun h => m h >>= f h) (n >>= d) := by
  intro c ran
  obtain ⟨a, ran, more⟩ := except_bind_eq_ok_iff.mp ran
  obtain ⟨g, b, done, here, near⟩ := first a ran
  cases ran.symm.trans near.at_zero
  obtain ⟨k, e, ended, there, near'⟩ := next g b here c more
  refine ⟨k, e, except_bind_eq_ok_iff.mpr ⟨b, done, ended⟩, there, (near.and near').mono ?_⟩
  exact fun h both => except_bind_eq_ok_iff.mpr ⟨g h, both.1, both.2⟩

theorem fetch {found : Option (F → F)} {other : Option (Dual F)}
    (same : Option.Rel Expands found other) :
    Moves (fun g d => found = some g ∧ Expands g d)
      (fun h => ImplicitDiff.fetch (found.map fun g => g h)) (ImplicitDiff.fetch other) := by
  cases same with
  | none => exact fun _ ran => (nomatch ran)
  | some here => exact Moves.pure ⟨rfl, here⟩

/-- What each round of a loop keeps, the loop keeps. -/
theorem foldlM {ι : Type} {step : F → α → ι → Except Fault α} {other : β → ι → Except Fault β}
    (items : List ι) (each : ∀ i ∈ items, ∀ g b, related g b →
      Moves related (fun h => step h (g h) i) (other b i)) {g : F → α} {b : β}
    (start : related g b) :
    Moves related (fun h => items.foldlM (step h) (g h)) (items.foldlM other b) := by
  induction items generalizing g b with
  | nil => exact Moves.pure start
  | cons i rest ih =>
    simp only [List.foldlM_cons]
    refine (each i List.mem_cons_self g b start).bind fun k e here => ?_
    exact ih (fun i member => each i (List.mem_cons_of_mem _ member)) here

end Moves

end Moves

section Run

variable {us : List (F → F)} {vs : List (Dual F)} {gs : Array (F → F)} {ds : Array (Dual F)}

/-- Where moving inputs are at `h`. -/
def inputsAt (us : List (F → F)) (h : F) : Inputs F F := { unknowns := us.map fun u => u h }

/-- Where moving registers are at `h`. -/
def registersAt (gs : Array (F → F)) (h : F) : Array F := gs.map fun g => g h

omit [ExactOrderedField F] in
theorem getElem?_registersAt (gs : Array (F → F)) (h : F) (a : Register) :
    (registersAt gs h)[a]? = gs[a]?.map fun g => g h := Array.getElem?_map

omit [ExactOrderedField F] in
theorem all_registersAt {gs : Array (F → F)} {g : F → F} {a : Register} (found : gs[a]? = some g)
    {h : F} {p : F → Bool} : (registersAt gs h)[a]?.all p = p (g h) := by
  rw [getElem?_registersAt, found]
  rfl

omit [ExactOrderedField F] in
private theorem registersAt_empty (h : F) : registersAt #[] h = #[] := Array.map_empty

omit [ExactOrderedField F] in
theorem registersAt_push (gs : Array (F → F)) (g : F → F) (h : F) :
    registersAt (gs.push g) h = (registersAt gs h).push (g h) := Array.map_push

theorem Instruction.moves (inputs : List.Forall₂ Expands us vs) (registers : Aligned Expands gs ds)
    {i : Instruction F} (algebraic : i.isAlgebraic = true)
    (regular : i.isRegular (registersAt gs 0) = true) :
    Moves Expands (fun h => i.eval (inputsAt us h) (registersAt gs h))
      (i.eval { unknowns := vs } ds) := by
  cases i with
  | unknown i =>
    simp only [Instruction.eval, inputsAt, List.getElem?_map]
    exact (Moves.fetch (rel_getElem? inputs i)).imp fun _ _ both => both.2
  | parameter i =>
    intro _ ran
    cases ran
  | real i =>
    intro _ ran
    cases ran
  | integer i =>
    intro _ ran
    cases ran
  | constant c => exact Moves.pure (.constant c)
  | detach a => cases algebraic
  | neg a =>
    simp only [Instruction.eval, getElem?_registersAt]
    exact (Moves.fetch (registers.rel a)).bind fun g d both => Moves.pure both.2.neg
  | elementary f a =>
    simp only [Instruction.eval, getElem?_registersAt]
    refine (Moves.fetch (registers.rel a)).bind ?_
    rintro g d ⟨found, here⟩
    refine Moves.pure ?_
    rw [isRegular, all_registersAt found] at regular
    exact here.elementary algebraic regular
  | operate o a b =>
    simp only [Instruction.eval, getElem?_registersAt]
    refine (Moves.fetch (registers.rel a)).bind ?_
    rintro g d ⟨_, left⟩
    refine (Moves.fetch (registers.rel b)).bind ?_
    rintro k e ⟨found, right⟩
    refine Moves.pure ?_
    rw [isRegular, all_registersAt found] at regular
    exact left.operate o right regular
  | operateRight o a c =>
    simp only [Instruction.eval, getElem?_registersAt]
    refine (Moves.fetch (registers.rel a)).bind ?_
    rintro g d ⟨_, here⟩
    refine Moves.pure ?_
    exact Dual.operateRight_eq o d c ▸ here.operate o (.constant c) regular
  | operateLeft o c a =>
    simp only [Instruction.eval, getElem?_registersAt]
    refine (Moves.fetch (registers.rel a)).bind ?_
    rintro g d ⟨found, here⟩
    refine Moves.pure ?_
    rw [isRegular, all_registersAt found] at regular
    exact Dual.operateLeft_eq o c d ▸ (Expands.constant c).operate o here regular
  | select test a b c d =>
    simp only [Instruction.eval, getElem?_registersAt]
    refine (Moves.fetch (registers.rel a)).bind ?_
    rintro g e ⟨found, left⟩
    refine (Moves.fetch (registers.rel b)).bind ?_
    rintro k e' ⟨found', right⟩
    rw [isRegular, all_registersAt found, all_registersAt found'] at regular
    have taken := left.holds_near test right (bne_iff_ne.mp regular)
    refine ((Moves.fetch (registers.rel _)).imp fun _ _ both => both.2).congr (taken.mono ?_)
    exact fun h same =>
      congrArg (fun holds : Bool => fetch (gs[if holds then c else d]?.map fun g => g h)) same

/-- What stays true of every number that moves stays true of a register. -/
theorem all_near (registers : Aligned Expands gs ds) (a : Register) {p : F → F → Bool}
    (stays : ∀ g d, Expands g d → p 0 (g 0) = true → Near fun h => p h (g h) = true)
    (holds : (registersAt gs 0)[a]?.all (p 0) = true) :
    Near fun h => (registersAt gs h)[a]?.all (p h) = true := by
  simp only [getElem?_registersAt] at holds ⊢
  have same := registers.rel a
  cases found : gs[a]? with
  | none => exact .of_forall fun _ => rfl
  | some g =>
    rw [found] at same holds
    obtain ⟨d, here⟩ : ∃ d, Expands g d := by
      generalize ds[a]? = other at same
      cases same with
      | some here => exact ⟨_, here⟩
    exact stays g d here holds

/-- Where an instruction is smooth, it is also smooth nearby. -/
theorem Instruction.isRegular_near (registers : Aligned Expands gs ds) {i : Instruction F}
    (regular : i.isRegular (registersAt gs 0) = true) :
    Near fun h => i.isRegular (registersAt gs h) = true := by
  cases i with
  | elementary f a =>
    exact all_near registers a (p := fun _ => f.isSmooth)
      (fun g d here => here.isSmooth_near f) regular
  | operate o a b =>
    exact all_near registers b (p := fun _ => o.isDefined)
      (fun g d here => here.isDefined_near o) regular
  | operateLeft o c a =>
    exact all_near registers a (p := fun _ => o.isDefined)
      (fun g d here => here.isDefined_near o) regular
  | select test a b c d =>
    refine all_near registers a
      (p := fun (h left : F) => (registersAt gs h)[b]?.all (left != ·)) ?_ regular
    intro g d left
    refine all_near registers b (p := fun h right => g h != right) ?_
    intro k e right differ
    rw [bne_iff_ne, left.at_zero, right.at_zero] at differ
    exact (left.ne right differ).mono fun h => bne_iff_ne.mpr
  | _ => exact .of_forall fun _ => regular

/-- A regular run moves as dual numbers say, and stays regular. -/
theorem Program.moves (inputs : List.Forall₂ Expands us vs) {program : Program F}
    (algebraic : ∀ i ∈ program, i.isAlgebraic = true) (registers : Aligned Expands gs ds)
    (regular : program.isRegularFrom (inputsAt us 0) (registersAt gs 0) = true)
    {last : Array F} (ran : runFrom (inputsAt us 0) (registersAt gs 0) program = .ok last) :
    ∃ gs' ds', runFrom { unknowns := vs } ds program = .ok ds' ∧ Aligned Expands gs' ds' ∧
      Near fun h => runFrom (inputsAt us h) (registersAt gs h) program =
          .ok (registersAt gs' h) ∧
        program.isRegularFrom (inputsAt us h) (registersAt gs h) = true := by
  -- One induction for both parts: at `h` the rest is judged by the registers of the run at `h`.
  induction program generalizing gs ds with
  | nil => exact ⟨gs, ds, rfl, registers, .of_forall fun _ => ⟨rfl, rfl⟩⟩
  | cons i rest ih =>
    obtain ⟨smooth, onward⟩ := Bool.and_eq_true_iff.mp regular
    rw [runFrom_cons] at ran
    obtain ⟨c, first, ran⟩ := except_bind_eq_ok_iff.mp ran
    obtain ⟨g, d, done, here, near⟩ :=
      Instruction.moves inputs registers (algebraic i List.mem_cons_self) smooth c first
    dsimp only at near
    cases first.symm.trans near.at_zero
    rw [first] at onward
    obtain ⟨gs', ds', ended, there, near'⟩ :=
      ih (fun i member => algebraic i (List.mem_cons_of_mem _ member)) (registers.push here)
        (by rwa [registersAt_push]) (by rwa [registersAt_push])
    refine ⟨gs', ds', ?_, there, ?_⟩
    · rw [runFrom_cons]
      exact except_bind_eq_ok_iff.mpr ⟨d, done, ended⟩
    · refine ((near.and near').and (Instruction.isRegular_near registers smooth)).mono ?_
      rintro h ⟨⟨moved, kept⟩, still⟩
      rw [registersAt_push] at kept
      rw [runFrom_cons, isRegularFrom, still, moved]
      exact kept

/-- Outputs that are always there move as their registers. -/
theorem Output.moves (registers : Aligned Expands gs ds) {outputs : List Output}
    (fixed : ∀ o ∈ outputs, o.isFixed = true) :
    Moves (fun values duals => ∃ rs : List (F → F), (values = fun h => rs.map fun r => r h) ∧
        List.Forall₂ Expands rs duals)
      (fun h => Output.select (M := Except Fault) (registersAt gs h) outputs)
      (Output.select (M := Except Fault) ds outputs) := by
  refine Moves.foldlM outputs ?_ ⟨[], rfl, .nil⟩
  rintro o member _ es ⟨rs, rfl, here⟩
  cases o with
  | whenLess a b r => cases fixed _ member
  | always r =>
    simp only [getElem?_registersAt]
    refine (Moves.fetch (registers.rel r)).bind fun g d both => Moves.pure ⟨rs ++ [g], ?_, ?_⟩
    · simp
    · exact List.rel_append here (.cons both.2 .nil)

theorem Function.moves (inputs : List.Forall₂ Expands us vs) {f : Function F}
    (algebraic : ∀ i ∈ f.program, i.isAlgebraic = true)
    (fixed : ∀ o ∈ f.outputs, o.isFixed = true)
    (regular : f.program.isRegular (inputsAt us 0) = true) {values : List F}
    (ran : f.eval (M := Except Fault) (inputsAt us 0) = .ok values) :
    ∃ rs duals, f.eval (M := Except Fault) { unknowns := vs } = .ok duals ∧
      List.Forall₂ Expands rs duals ∧
      Near fun h => f.eval (M := Except Fault) (inputsAt us h) = .ok (rs.map fun r => r h) ∧
        f.program.isRegular (inputsAt us h) = true := by
  obtain ⟨last, first, selected⟩ := except_bind_eq_ok_iff.mp ran
  have start : Aligned (Expands (F := F)) #[] #[] := .nil
  have whole := Program.moves inputs algebraic start
  simp only [registersAt_empty] at whole
  obtain ⟨gs, ds, done, registers, near⟩ := whole regular first
  cases first.symm.trans near.at_zero.1
  obtain ⟨_, duals, ended, ⟨rs, rfl, here⟩, near'⟩ := Output.moves registers fixed values selected
  refine ⟨rs, duals, except_bind_eq_ok_iff.mpr ⟨ds, done, ended⟩, here, ?_⟩
  refine (near.and near').mono fun h both => ⟨?_, both.1.2⟩
  exact except_bind_eq_ok_iff.mpr ⟨_, both.1.1, both.2⟩

/-- The numbers that move from the point `x` in a direction. -/
def along (free : Nat → F) (x : List F) : List (F → F) := x.mapIdx fun i c h => c + h * free i

private theorem along_expands (free : Nat → F) (x : List F) :
    List.Forall₂ Expands (along free x) (varied free x) := by
  apply List.forall₂_of_length_eq_of_get
  · simp [along, varied]
  · intro i _ _
    simp only [along, varied, List.get_eq_getElem, List.getElem_mapIdx]
    exact .line _ _

private theorem primal_of_expands {rs : List (F → F)} {duals : List (Dual F)}
    (expands : List.Forall₂ Expands rs duals) :
    duals.map Dual.primal = rs.map fun r => r 0 := by
  rw [← List.forall₂_eq_eq_eq, List.forall₂_map_left_iff, List.forall₂_map_right_iff]
  exact (expands.imp fun _ _ here => here.at_zero.symm).flip

/-- Each entry moves as its dual number says; beyond the end both are zero. -/
theorem getD_expands {rs : List (F → F)} {duals : List (Dual F)}
    (expands : List.Forall₂ Expands rs duals) (i : Nat) :
    Expands (fun h => (rs.map fun r => r h).getD i 0)
      ⟨(duals.map Dual.primal).getD i 0, (duals.map Dual.tangent).getD i 0⟩ := by
  have same := rel_getElem? expands i
  simp only [List.getD_eq_getElem?_getD, List.getElem?_map]
  generalize rs[i]? = found at same
  generalize duals[i]? = other at same
  cases same with
  | none => exact .constant 0
  | some here => exact here

theorem inputsAt_along {free : Nat → F} {x y : List F} {h : F}
    (each : ∀ i, y[i]? = x[i]?.map fun c => c + h * free i) :
    inputsAt (along free x) h = { unknowns := y } := by
  refine congrArg (Inputs.mk · [] [] []) (List.ext_getElem? fun i => ?_)
  rw [each, along, List.getElem?_map, List.getElem?_mapIdx, Option.map_map]
  rfl

theorem inputsAt_zero (free : Nat → F) (x : List F) :
    inputsAt (along free x) 0 = { unknowns := x } := by
  refine inputsAt_along fun i => ?_
  simp only [zero_mul, add_zero, Option.map_id']

private theorem inputsAt_single (x : List F) (j : Nat) (h : F) :
    inputsAt (along (Pi.single j 1) x) h = { unknowns := x.modify j (· + h) } := by
  refine inputsAt_along fun i => ?_
  rw [List.getElem?_modify]
  refine congrArg (Option.map · x[i]?) (funext fun c => ?_)
  rw [Pi.single_apply]
  split_ifs with same other other
  · rw [mul_one]
  · exact absurd same.symm other
  · exact absurd other.symm same
  · rw [mul_zero, add_zero]

end Run

/-- **The Jacobian is the derivative.** At a point where a program of field operations, integer
powers, magnitudes and branches runs regularly, moving one input by a small number leaves the run
regular and moves each value by this number times an entry of the Jacobian, up to a multiple of the
square. -/
theorem jacobian_remainder_le {f : Function F} {x : List F}
    (algebraic : ∀ i ∈ f.program, i.isAlgebraic = true)
    (fixed : ∀ o ∈ f.outputs, o.isFixed = true)
    (regular : f.program.isRegular { unknowns := x } = true) {values : List F}
    (ran : f.eval (M := Except Fault) { unknowns := x } = .ok values) :
    ∃ rows : Rows F,
      jacobian (fun xs => f.eval (M := Except Fault) { unknowns := xs }) x =
        .ok (values, rows) ∧
      rows.length = values.length ∧ (∀ row ∈ rows, row.length = x.length) ∧
      ∀ (i : Fin values.length) (j : Fin x.length), ∃ δ C, 0 < δ ∧ ∀ h, |h| < δ →
        ∃ moved, f.eval (M := Except Fault) { unknowns := x.modify j (· + h) } = .ok moved ∧
          moved.length = values.length ∧
          f.program.isRegular { unknowns := x.modify j (· + h) } = true ∧
          |vector moved values.length i - vector values values.length i -
            h * rows.matrix values.length x.length i j| ≤ C * h ^ 2 := by
  rw [← inputsAt_zero fun _ => 0] at ran regular
  have zero (free : Nat → F) : inputsAt (along free x) 0 = inputsAt (along (fun _ => 0) x) 0 := by
    rw [inputsAt_zero, inputsAt_zero]
  have each (free : Nat → F) := Function.moves (along_expands free x) algebraic fixed
    (by rwa [zero]) (by rwa [zero])
  choose rs duals runs expands near using each
  have start (free : Nat → F) : (rs free).map (fun r => r 0) = values := by
    have here := (near free).at_zero.1
    rw [zero] at here
    exact Except.ok.inj (here.symm.trans ran)
  have count (free : Nat → F) : (rs free).length = values.length := by
    rw [← start free, List.length_map]
  have found :=
    jacobian_of_runs (f := fun xs => f.eval (M := Except Fault) { unknowns := xs }) runs
  rw [primal_of_expands (expands _), start] at found
  refine ⟨_, found, ?_, ?_, fun i j => ?_⟩
  · rw [List.length_map, List.length_range, ← (expands _).length_eq, count]
  · intro row member
    obtain ⟨i, -, rfl⟩ := List.mem_map.mp member
    rw [List.length_map, List.length_range]
  · have columns := congrFun (congrFun (matrix_of_jacobian runs found).2 i) j
    obtain ⟨C, error⟩ := (getD_expands (expands (Pi.single j 1)) i).error_le
    obtain ⟨δ, positive, small⟩ := (near (Pi.single j 1)).and error
    refine ⟨δ, C, positive, fun h inside => ?_⟩
    obtain ⟨⟨moved, kept⟩, le⟩ := small h inside
    rw [inputsAt_single] at moved kept
    rw [start] at le
    refine ⟨_, moved, ?_, kept, ?_⟩
    · rw [List.length_map, count]
    · rw [columns]
      exact le

/-- A quotient, a magnitude, a negative power and a branch. -/
theorem jacobian_remainder_le_with_branch :
    ∃ f : Function ℚ, f.eval (M := Except Fault) { unknowns := ([-3, 2] : List ℚ) } = .ok [3 / 8] ∧
      ∃ δ C : ℚ, 0 < δ ∧ ∀ h, |h| < δ →
        ∃ value, f.eval (M := Except Fault) { unknowns := [-3, 2 + h] } = .ok [value] ∧
          |value - 3 / 8 - h * (-9 / 16)| ≤ C * h ^ 2 := by
  let f : Function ℚ :=
    { program := [.unknown 0, .unknown 1, .operate .div 0 1, .elementary .abs 2,
        .elementary (.powInt (-2)) 1, .select .less 0 1 3 4, .operate .mul 5 4]
      outputs := [.always 6] }
  have ran : f.eval (M := Except Fault) { unknowns := ([-3, 2] : List ℚ) } = .ok [3 / 8] := by
    decide +kernel
  obtain ⟨rows, found, -, -, le⟩ := jacobian_remainder_le (f := f) (x := [-3, 2])
    (by decide) (by decide) (by decide +kernel) ran
  have linear : jacobian (fun xs => f.eval (M := Except Fault) { unknowns := xs })
      ([-3, 2] : List ℚ) = .ok ([3 / 8], [[-1 / 8, -9 / 16]]) := by decide +kernel
  cases found.symm.trans linear
  obtain ⟨δ, C, positive, small⟩ := le ⟨0, by decide⟩ ⟨1, by decide⟩
  refine ⟨f, ran, δ, C, positive, fun h inside => ?_⟩
  obtain ⟨moved, done, length, -, bound⟩ := small h inside
  obtain ⟨value, rfl⟩ := List.length_eq_one_iff.mp length
  exact ⟨value, done, bound⟩

/-- The function `x ^ n` of one number. -/
def power (n : Int) : Function F :=
  { program := [.unknown 0, .elementary (.powInt n) 0], outputs := [.always 1] }

private theorem eval_power (n : Int) (x : F) :
    (power n).eval (M := Except Fault) { unknowns := [x] } = .ok [x ^ n] := by
  rw [← Arith.powInt_eq]
  rfl

private theorem jacobian_power (n : Int) (x : F) :
    jacobian (fun xs => (power n).eval (M := Except Fault) { unknowns := xs }) [x] =
      .ok ([x ^ n], [[n * x ^ Elementary.exponentBelow n]]) := by
  rw [← Arith.powInt_eq, ← Arith.powInt_eq, ← one_mul ((n : F) * _)]
  rfl

/-- Only one rate leaves an error of second order. -/
theorem rate_of_power {n : Int} {x rate δ C : F} (nonzero : x ≠ 0) (positive : 0 < δ)
    (small : ∀ h, |h| < δ → ∃ moved,
      (power n).eval (M := Except Fault) { unknowns := [x + h] } = .ok [moved] ∧
        |moved - x ^ n - h * rate| ≤ C * h ^ 2) :
    rate = n * x ^ (n - 1) := by
  have moves := (Expands.line x 1).zpow (n := n) (.inr nonzero)
  have near : Near fun h =>
      |(x + h * 1) ^ n - (x + 0 * 1) ^ n - h * rate| ≤ C * h ^ 2 := by
    refine ⟨δ, positive, fun h inside => ?_⟩
    obtain ⟨moved, done, le⟩ := small h inside
    cases done.symm.trans (eval_power n _)
    rwa [mul_one, zero_mul, add_zero]
  exact (moves.eq_tangent near).trans (one_mul _)

/-- The first of two numbers. -/
def firstOfTwo : Function F := { program := [.unknown 0, .unknown 1], outputs := [.always 0] }

/-- What regular runs leave out. An input that is missing is a fault, also if nothing depends on it.
And the power with the least exponent, whose slope takes the greatest one, moves differently. -/
theorem jacobian_not_derivative :
    jacobian (fun xs => firstOfTwo.eval (M := Except Fault) { unknowns := xs }) ([1] : List ℚ) =
        .error .indexOutOfBounds ∧
      ∃ value slope : ℚ, jacobian (fun xs => (power (-2 ^ 31)).eval (M := Except Fault)
          { unknowns := xs }) ([2] : List ℚ) = .ok ([value], [[slope]]) ∧
        ¬∃ δ C : ℚ, 0 < δ ∧ ∀ h, |h| < δ → ∃ moved,
          (power (-2 ^ 31)).eval (M := Except Fault) { unknowns := [2 + h] } = .ok [moved] ∧
            |moved - value - h * slope| ≤ C * h ^ 2 := by
  refine ⟨rfl, _, _, jacobian_power _ _, ?_⟩
  rintro ⟨δ, C, positive, small⟩
  have same := mul_left_cancel₀ (Int.cast_ne_zero.mpr (by decide))
    (rate_of_power two_ne_zero positive small)
  have exponents : Elementary.exponentBelow (-2 ^ 31) = -2 ^ 31 - 1 :=
    zpow_right_injective₀ two_pos (by norm_num) same
  exact absurd exponents (by decide)

end ImplicitDiff
