import ImplicitDiff.Proofs.Effects
import ImplicitDiff.Proofs.Program.Plain

/-! # What all kinds of numbers compute alike

A program that mixes no kinds of numbers computes the same values on dual and on traced numbers, to
the last bit and in any arithmetic, takes the same branches and ends in the same faults. What these
runs show is what a run on plain numbers shows that divide by the reciprocal, as dual and traced
numbers do. Neither tangents nor the tape have a part in it.
-/

namespace ImplicitDiff

/-- Plain numbers that divide by the reciprocal, as dual and traced numbers do. -/
def ViaReciprocal (F : Type) : Type := F

section Observation

variable {F T : Type} [Arith F] {M : Type → Type} [Monad M] [MonadExceptOf Fault M] [Carrier F T M]

/-- The operation on plain numbers, with the quotient as a product with the reciprocal. -/
def Operation.viaReciprocal : Operation → F → F → F
  | .div, a, b => a * (1 / b)
  | o, a, b => o.value a b

instance : Carrier F (ViaReciprocal F) (Except Fault) where
  lift := id
  value := id
  neg (a : F) := (pure (-a) : Except Fault F)
  elementary f (a : F) := (pure (f.value a) : Except Fault F)
  operate o (a b : F) := (pure (o.viaReciprocal a b) : Except Fault F)
  operateRight o (a c : F) := (pure (o.viaReciprocal a c) : Except Fault F)
  operateLeft o (c a : F) := (pure (o.viaReciprocal c a) : Except Fault F)

/-- The register that a selection takes. -/
def Instruction.branch (registers : Array T) : Instruction F → Option Register
  | .select test a b c d => do
    let left ← registers[a]?.map Carrier.value
    let right ← registers[b]?.map Carrier.value
    return if test.holds left right then c else d
  | _ => none

/-- What a run shows of its numbers, whatever their kind is. -/
structure Observation (F : Type) where
  /-- The values of all registers. -/
  registers : List F
  /-- The registers that the selections took. -/
  branches : List Register
  /-- The values of the outputs. -/
  outputs : List F
deriving Repr

/-- What the registers at the end of a run show. A register is written once, so they decide each
selection as the registers before it did. -/
def Function.view (f : Function F) (registers : Array T) : M (Observation F) := do
  let outputs ← Output.select registers f.outputs
  return {
    registers := registers.toList.map Carrier.value
    branches := f.program.filterMap fun i => i.branch registers
    outputs := outputs.map Carrier.value }

/-- What a run of a function shows. -/
def Function.observe (f : Function F) (inputs : Inputs F T) : M (Observation F) := do
  f.view (← f.program.run inputs)

/-- What is shown at the end are the values of the function. -/
theorem Function.outputs_observe [LawfulMonad M] (f : Function F) (inputs : Inputs F T) :
    Observation.outputs <$> f.observe inputs = List.map Carrier.value <$> f.eval inputs := by
  simp only [observe, view, eval, map_eq_pure_bind, bind_assoc, pure_bind]

end Observation

section Written

variable {F T : Type} [Arith F] [Carrier F T (Except Fault)] {inputs : Inputs F T}
  {program : Program F} {registers last : Array T}

/-- A register is written once. -/
theorem Program.getElem?_of_runFrom (ran : runFrom inputs registers program = .ok last) {k : Nat}
    {c : T} (found : registers[k]? = some c) : last[k]? = some c := by
  induction program generalizing registers with
  | nil =>
    cases ran
    exact found
  | cons i rest ih =>
    rw [runFrom_cons] at ran
    obtain ⟨d, -, onward⟩ := except_bind_eq_ok_iff.mp ran
    obtain ⟨bound, -⟩ := Array.getElem?_eq_some_iff.mp found
    refine ih onward ?_
    rwa [Array.getElem?_push, if_neg bound.ne]

/-- Each instruction writes a register. -/
theorem Program.size_of_runFrom (ran : runFrom inputs registers program = .ok last) :
    last.size = registers.size + program.length := by
  induction program generalizing registers with
  | nil =>
    cases ran
    rfl
  | cons i rest ih =>
    rw [runFrom_cons] at ran
    obtain ⟨d, -, onward⟩ := except_bind_eq_ok_iff.mp ran
    rw [ih onward, Array.size_push, List.length_cons]
    omega

/-- What an instruction wrote, from registers before it, which are still there at the end. -/
theorem Program.exists_eval_of_runFrom (ran : runFrom inputs registers program = .ok last) {k : Nat}
    {i : Instruction F} (here : program[k]? = some i) :
    ∃ before d, before.size = registers.size + k ∧ i.eval inputs before = .ok d ∧
      last[registers.size + k]? = some d ∧
      ∀ (a : Register) (c : T), before[a]? = some c → last[a]? = some c := by
  induction program generalizing registers k with
  | nil => cases here
  | cons j rest ih =>
    have kept (a : Register) (c : T) := getElem?_of_runFrom (k := a) (c := c) ran
    rw [runFrom_cons] at ran
    obtain ⟨d, first, onward⟩ := except_bind_eq_ok_iff.mp ran
    cases k with
    | zero =>
      cases here
      exact ⟨registers, d, rfl, first, getElem?_of_runFrom onward Array.getElem?_push_size, kept⟩
    | succ k =>
      have next := ih onward here
      rwa [Array.size_push, Nat.add_right_comm, Nat.add_assoc] at next

/-- A selection holds the register that it took. -/
theorem Program.getElem?_of_branch (ran : runFrom inputs registers program = .ok last) {k : Nat}
    {i : Instruction F} (here : program[k]? = some i) {r : Register}
    (taken : i.branch last = some r) : last[registers.size + k]? = last[r]? := by
  obtain ⟨before, d, -, defined, written, kept⟩ := exists_eval_of_runFrom ran here
  cases i with
  | select test a b c d =>
    obtain ⟨x, left, defined⟩ := except_bind_eq_ok_iff.mp defined
    obtain ⟨y, right, chosen⟩ := except_bind_eq_ok_iff.mp defined
    rw [fetch_eq_ok_iff] at left right chosen
    simp only [Instruction.branch, kept a x left, kept b y right, Option.map_some] at taken
    cases taken
    exact written.trans (kept _ _ chosen).symm
  | _ => cases taken

end Written

namespace Coupling

variable {F T U : Type} {M N : Type → Type} [Monad M] [Monad N] [MonadExceptOf Fault M]
  [MonadExceptOf Fault N] [Carrier F T M] [Carrier F U N] {C : Coupling M N}
  {related : C.Stage → T → U → Prop} {s : C.Stage} {registers : Array T} {others : Array U}
  {left : Inputs F T} {right : Inputs F U}

namespace RespectsUnmixed

theorem values_eq (respects : C.RespectsUnmixed related) {items : List T} {others : List U}
    (same : List.Forall₂ (related s) items others) :
    items.map (Carrier.value : T → F) = others.map Carrier.value := by
  rw [← List.forall₂_eq_eq_eq, List.forall₂_map_left_iff, List.forall₂_map_right_iff]
  exact same.imp fun _ _ => respects.value

variable [Arith F]

theorem branch_eq (respects : C.RespectsUnmixed related)
    (same : Aligned (related s) registers others) (i : Instruction F) :
    i.branch registers = i.branch others := by
  have value_eq (k : Register) :
      registers[k]?.map (Carrier.value : T → F) = others[k]?.map Carrier.value := by
    have both := same.rel k
    generalize registers[k]? = found, others[k]? = other at both
    cases both with
    | none => rfl
    | some here => exact congrArg some (respects.value here)
  cases i with
  | select test a b c d => simp only [Instruction.branch, value_eq]
  | _ => rfl

/-- Runs with related inputs show the same. -/
theorem observe (respects : C.RespectsUnmixed related) (inputs : left.Related (related s) right)
    {f : Function F} (unmixed : f.program.all Instruction.isUnmixed = true) :
    C.Runs f.program.length (fun _ => Eq) s (f.observe left) (f.observe right) := by
  refine runs_bind_of_free (respects.run inputs unmixed) fun t registers others _ same => ?_
  refine C.weaken (C.bind (respects.select same f.outputs) ?_) (Nat.add_zero 0).le
  intro u outputs picked after chosen
  refine C.pure ?_
  have aligned := respects.aligned_later after same
  rw [respects.values_eq aligned, respects.values_eq chosen]
  simp only [respects.branch_eq aligned]

end RespectsUnmixed

end Coupling

/-! ## Dual numbers -/

variable {F : Type}

/-- Dual numbers have the values of numbers that divide by the reciprocal, whatever their tangents
are. -/
theorem sideBySide_respectsUnmixed [Arith F] :
    sideBySide.RespectsUnmixed fun _ (c : ViaReciprocal F) (d : Dual F) => d.primal = c where
  later _ same := same
  value same := same.symm
  lift _ _ := rfl
  neg same := sideBySide.weaken (sideBySide.pure (congrArg Neg.neg same)) zero_le_one
  elementary f same := sideBySide.weaken (sideBySide.pure (congrArg f.value same)) zero_le_one
  operate {s a c b d} o left right := by
    refine sideBySide.weaken (sideBySide.pure ?_) zero_le_one
    rw [← left, ← right]
    cases o <;> rfl

theorem eq_of_sideBySide {α : Type} {cost : Nat} {s : Unit} {m n : Except Fault α}
    (runs : sideBySide.Runs cost (fun _ => Eq) s m n) : n = m := by
  obtain ⟨succeeds, fails⟩ := runs
  cases m with
  | error fault => exact fails fault rfl
  | ok a =>
    obtain ⟨_, ran, rfl⟩ := succeeds a rfl
    exact ran

/-! ## Traced numbers -/

/-- A computation without a state beside one that records. Only values count here, so a stage says
whether a tape is active and nothing of what is on it. -/
def besideRecorder (F : Type) : Coupling (Except Fault) (RecordM F) where
  Stage := Bool
  Later := Eq
  Runs _ related active m n := ∀ r : Recorder F, r.tape.isSome = active →
    (∀ a, m = .ok a → ∃ b u, n.run.run r = (.ok b, u) ∧ u.tape.isSome = active ∧
      related active a b) ∧
    ∀ fault, m = .error fault → ∃ u, n.run.run r = (.error fault, u)
  later_refl _ := rfl
  later_trans first second := first.trans second
  pure here r kept :=
    ⟨fun _ same => ⟨_, r, rfl, kept, by cases same; exact here⟩, fun _ none => (nomatch none)⟩
  fault _ _ _ r _ := ⟨fun _ none => (nomatch none), fun _ same => ⟨r, by cases same; rfl⟩⟩
  weaken runs _ := runs
  bind {α β γ δ first second cost more s m n f g} runs next r kept := by
    obtain ⟨succeeds, fails⟩ := runs r kept
    cases m with
    | error fault =>
      obtain ⟨u, ended⟩ := fails fault rfl
      exact ⟨fun _ none => (nomatch none),
        fun _ same => ⟨u, by cases same; exact run_bind_of_error ended⟩⟩
    | ok a =>
      obtain ⟨b, u, ran, still, here⟩ := succeeds a rfl
      rw [run_bind_of_ok ran]
      exact next s a b rfl here u still

theorem eq_of_besideRecorder {α : Type} {cost : Nat} {r : Recorder F} {m : Except Fault α}
    {n : RecordM F α} (runs : (besideRecorder F).Runs cost (fun _ => Eq) r.tape.isSome m n) :
    (n.run.run r).1 = m := by
  obtain ⟨succeeds, fails⟩ := runs r rfl
  cases m with
  | error fault =>
    obtain ⟨u, ended⟩ := fails fault rfl
    rw [ended]
  | ok a =>
    obtain ⟨_, u, ran, -, rfl⟩ := succeeds a rfl
    rw [ran]

/-- A traced number has the value `c`. Without an active tape it is a constant. -/
structure Traced.Holds (active : Bool) (c : F) (a : Traced F) : Prop where
  value : a.value = c
  tracked : active = true ∨ a.index = Index.constant

/-- What is recorded has the value of the statement, and only tracked operands need a tape. -/
theorem Traced.runs_record {active : Bool} {value : F} {terms : List (Index × F)}
    (tracked : active = true ∨ ∀ term ∈ terms, term.1 = Index.constant) :
    (besideRecorder F).Runs 1 Traced.Holds active (pure value) (Traced.record value terms) := by
  unfold Traced.record
  split_ifs with fixed
  · exact (besideRecorder F).weaken ((besideRecorder F).pure ⟨rfl, .inr rfl⟩) zero_le_one
  · have on : active = true := by
      refine tracked.resolve_right fun still => fixed (List.all_eq_true.mpr fun term member => ?_)
      exact beq_iff_eq.mpr (still term member)
    rintro ⟨tape, journal⟩ kept
    obtain ⟨t, rfl⟩ := Option.isSome_iff_exists.mp (kept.trans on)
    refine ⟨fun c same => ?_, fun _ none => (nomatch none)⟩
    cases same
    exact ⟨⟨value, t.size⟩, ⟨some (t.push terms), journal⟩, rfl, kept, rfl, .inl on⟩

theorem besideRecorder_respectsUnmixed [Arith F] :
    (besideRecorder F).RespectsUnmixed (T := ViaReciprocal F) (U := Traced F) Traced.Holds where
  later := by
    rintro s _ a b rfl holds
    exact holds
  value holds := holds.value.symm
  lift _ _ := ⟨rfl, .inr rfl⟩
  neg {s a b} holds := by
    obtain ⟨rfl, tracked⟩ := holds
    exact Traced.runs_record (tracked.imp id fun still => by simp [still])
  elementary {s a b} f holds := by
    obtain ⟨rfl, tracked⟩ := holds
    exact Traced.runs_record (tracked.imp id fun still => by simp [still])
  operate {s a c b d} o left right := by
    obtain ⟨rfl, first⟩ := left
    obtain ⟨rfl, second⟩ := right
    have tracked (m n : F) :
        s = true ∨ ∀ term ∈ [(b.index, m), (d.index, n)], term.1 = Index.constant := by
      obtain on | still := first
      · exact .inl on
      · exact second.imp id fun fixed => by simp [still, fixed]
    cases o <;> exact Traced.runs_record (tracked _ _)

end ImplicitDiff
