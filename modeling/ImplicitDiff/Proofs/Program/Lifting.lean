import Mathlib.Tactic
import ImplicitDiff.Proofs.Effects
import ImplicitDiff.Proofs.Exact
import ImplicitDiff.Proofs.Program.Coupling

/-! # Mixed instructions with lifted numbers

An operation on a register and a plain number can be written as two instructions: a constant, and
the operation on two registers. The constant takes a register of its own, so later registers move.
Traced numbers record the same statement either way, in any arithmetic, because a constant operand
leaves no trace on the tape. Dual numbers round differently, but in exact arithmetic the tangents
agree as well.
-/

namespace ImplicitDiff

variable {F T : Type}

/-! ## Writing mixed instructions with lifted numbers -/

/-- The plain number that a mixed instruction works on. -/
def Instruction.plain? : Instruction F → Option F
  | .operateRight _ _ c | .operateLeft _ c _ => some c
  | _ => none

/-- The instruction with other registers for its operands. -/
def Instruction.rename (place : Register → Register) : Instruction F → Instruction F
  | .detach a => .detach (place a)
  | .neg a => .neg (place a)
  | .elementary f a => .elementary f (place a)
  | .operate o a b => .operate o (place a) (place b)
  | .operateRight o a c => .operateRight o (place a) c
  | .operateLeft o c a => .operateLeft o c (place a)
  | .select test a b c d => .select test (place a) (place b) (place c) (place d)
  | i => i

/-- A mixed instruction with a register in place of its plain number. -/
def Instruction.withRegister (lifted : Register) : Instruction F → Instruction F
  | .operateRight o a _ => .operate o a lifted
  | .operateLeft o _ a => .operate o lifted a
  | i => i

/-- The output with other registers. -/
def Output.rename (place : Register → Register) : Output → Output
  | .always r => .always (place r)
  | .whenLess a b r => .whenLess (place a) (place b) (place r)

namespace Lifting

/-- Where the registers for instruction `k` begin, if `lifts` tells which instructions have their
plain number lifted. -/
def start (lifts : Nat → Option F) : Nat → Register
  | 0 => 0
  | k + 1 => start lifts k + (lifts k).toList.length + 1

/-- Where register `k` goes: behind the number that is lifted for it, if one is. -/
def place (lifts : Nat → Option F) (k : Register) : Register :=
  start lifts k + (lifts k).toList.length

/-- What instruction `k` becomes: itself, or a constant and the operation with its register. -/
def block (lifts : Nat → Option F) (i : Instruction F) (k : Nat) : Program F :=
  match lifts k with
  | none => [i.rename (place lifts)]
  | some c => [.constant c, (i.rename (place lifts)).withRegister (start lifts k)]

end Lifting

/-- The plain number of instruction `k`, if the instruction is mixed and chosen. -/
def Program.lifts (program : Program F) (chosen : Nat → Bool) (k : Nat) : Option F :=
  if chosen k then program[k]?.bind Instruction.plain? else none

/-- The program with the plain numbers of the chosen mixed instructions lifted. -/
def Program.liftPlain (program : Program F) (chosen : Nat → Bool) : Program F :=
  program.zipIdx.flatMap fun (i, k) => Lifting.block (program.lifts chosen) i k

/-- The function with the plain numbers of the chosen mixed instructions lifted. -/
def Function.liftPlain (f : Function F) (chosen : Nat → Bool) : Function F :=
  { program := f.program.liftPlain chosen
    outputs := f.outputs.map (Output.rename (Lifting.place (f.program.lifts chosen))) }

theorem Program.lifts_of_mem {program : Program F} {i : Instruction F} {k : Nat}
    (listed : (i, k) ∈ program.zipIdx) (chosen : Nat → Bool) :
    program.lifts chosen k = if chosen k then i.plain? else none := by
  rw [lifts, List.mem_zipIdx_iff_getElem?.mp listed]
  rfl

theorem Instruction.isUnmixed_eq (i : Instruction F) : i.isUnmixed = i.plain?.isNone := by
  cases i <;> rfl

@[simp] theorem Instruction.plain?_rename (place : Register → Register) (i : Instruction F) :
    (i.rename place).plain? = i.plain? := by
  cases i <;> rfl

@[simp] theorem Instruction.plain?_withRegister (lifted : Register) (i : Instruction F) :
    (i.withRegister lifted).plain? = none := by
  cases i <;> rfl

/-- If all are chosen, no mixed instruction is left. -/
theorem Program.all_isUnmixed_liftPlain (program : Program F) :
    (program.liftPlain fun _ => true).all Instruction.isUnmixed = true := by
  rw [liftPlain, List.all_flatMap, List.all_eq_true]
  rintro ⟨i, k⟩ listed
  dsimp only
  rw [Lifting.block, lifts_of_mem listed, if_pos rfl]
  cases mixed : i.plain? with
  | none => simp [Instruction.isUnmixed_eq, mixed]
  | some c =>
    have fixed : (Instruction.constant c : Instruction F).plain? = none := rfl
    simp [Instruction.isUnmixed_eq, fixed]

/-! ## Registers with lifted numbers among them -/

namespace Lifting

private theorem start_succ (lifts : Nat → Option F) (k : Nat) :
    start lifts (k + 1) = place lifts k + 1 :=
  rfl

theorem place_mono (lifts : Nat → Option F) : Monotone (place lifts) := by
  refine monotone_nat_of_le_succ fun k => ?_
  calc place lifts k ≤ start lifts (k + 1) := Nat.le_succ _
    _ ≤ place lifts (k + 1) := Nat.le_add_right ..

theorem place_lt_start (lifts : Nat → Option F) {r k : Nat} (before : r < k) :
    place lifts r < start lifts k := by
  obtain ⟨k, rfl⟩ := Nat.exists_eq_add_one_of_ne_zero (Nat.ne_zero_of_lt before)
  rw [start_succ]
  exact Nat.lt_succ_of_le (place_mono lifts (Nat.le_of_lt_succ before))

section Spread

variable {M : Type → Type} [Carrier F T M]

/-- The registers of a program, each behind the number that is lifted for it. -/
def spread (lifts : Nat → Option F) (registers : List T) : List T :=
  registers.zipIdx.flatMap fun (a, k) => (lifts k).toList.map Carrier.lift ++ [a]

theorem spread_concat (lifts : Nat → Option F) (registers : List T) (a : T) :
    spread lifts (registers ++ [a]) =
      spread lifts registers ++ (lifts registers.length).toList.map Carrier.lift ++ [a] := by
  simp [spread, List.zipIdx_append]

theorem length_spread (lifts : Nat → Option F) (registers : List T) :
    (spread lifts registers).length = start lifts registers.length := by
  induction registers using List.reverseRecOn with
  | nil => rfl
  | append_singleton registers a ih => simp [spread_concat, ih, start, Nat.add_assoc]

private theorem getElem?_spread (lifts : Nat → Option F) {registers : List T} {r : Register}
    (defined : r < registers.length) :
    (spread lifts registers)[place lifts r]? = registers[r]? := by
  induction registers using List.reverseRecOn with
  | nil => cases defined
  | append_singleton registers a ih =>
    rw [spread_concat]
    obtain before | rfl := Nat.lt_or_eq_of_le (Nat.le_of_lt_succ (by simpa using defined))
    · have inside := length_spread lifts registers ▸ place_lt_start lifts before
      rw [List.append_assoc, List.getElem?_append_left inside, ih before,
        List.getElem?_append_left before]
    · have last : place lifts registers.length =
          (spread lifts registers ++ (lifts registers.length).toList.map Carrier.lift).length := by
        simp [length_spread, place]
      rw [last, List.getElem?_concat_length, List.getElem?_concat_length]

/-- Every register is found at its place, also while the number for the next one is lifted already.
A register that is not defined yet is not found. -/
theorem getElem?_spread_append (lifts : Nat → Option F) (registers : List T) (ahead : List T)
    (few : ahead.length ≤ (lifts registers.length).toList.length) (r : Register) :
    (spread lifts registers ++ ahead)[place lifts r]? = registers[r]? := by
  obtain defined | undefined := Nat.lt_or_ge r registers.length
  · have inside := length_spread lifts registers ▸ place_lt_start lifts defined
    rw [List.getElem?_append_left inside, getElem?_spread lifts defined]
  · have outside : (spread lifts registers ++ ahead).length ≤ place lifts r :=
      calc (spread lifts registers ++ ahead).length
          = start lifts registers.length + ahead.length := by
            rw [List.length_append, length_spread]
        _ ≤ place lifts registers.length := Nat.add_le_add_left few _
        _ ≤ place lifts r := place_mono lifts undefined
    rw [List.getElem?_eq_none outside, List.getElem?_eq_none undefined]

/-- The registers of the rewritten program when the program has these. -/
def widen (lifts : Nat → Option F) (registers : Array T) : Array T :=
  (spread lifts registers.toList).toArray

theorem getElem?_widen_append (lifts : Nat → Option F) (registers ahead : Array T)
    (few : ahead.size ≤ (lifts registers.size).toList.length) (r : Register) :
    (widen lifts registers ++ ahead)[place lifts r]? = registers[r]? := by
  rw [← Array.getElem?_toList, ← Array.getElem?_toList, Array.toList_append]
  exact getElem?_spread_append lifts registers.toList ahead.toList few r

theorem getElem?_widen (lifts : Nat → Option F) (registers : Array T) (r : Register) :
    (widen lifts registers)[place lifts r]? = registers[r]? := by
  have same := getElem?_widen_append lifts registers #[] (Nat.zero_le _) r
  rwa [Array.append_empty] at same

private theorem size_widen (lifts : Nat → Option F) (registers : Array T) :
    (widen lifts registers).size = start lifts registers.size :=
  length_spread lifts registers.toList

theorem widen_push (lifts : Nat → Option F) (registers : Array T) (a : T) :
    widen lifts (registers.push a) = (widen lifts registers ++
      ((lifts registers.size).toList.map Carrier.lift).toArray).push a := by
  apply Array.toList_inj.mp
  simp [widen, spread_concat]

end Spread

end Lifting

/-! ## Runs -/

/-- Operations with a plain number are operations with the number that is lifted. -/
class Carrier.LiftsPlain (F : outParam Type) (T : Type) (M : outParam (Type → Type))
    [Carrier F T M] : Prop where
  operateRight (o : Operation) (a : T) (c : F) :
    (Carrier.operateRight o a c : M T) = Carrier.operate o a (Carrier.lift c)
  operateLeft (o : Operation) (c : F) (a : T) :
    (Carrier.operateLeft o c a : M T) = Carrier.operate o (Carrier.lift c) a

section Run

variable [Arith F] {M : Type → Type} [Monad M] [MonadExceptOf Fault M] [Carrier F T M]

variable {moved : Register → Register} {registers many : Array T}

/-- An instruction that finds its operands at other places does the same. -/
theorem Instruction.eval_rename (same : ∀ r : Register, many[moved r]? = registers[r]?)
    (inputs : Inputs F T) (i : Instruction F) :
    (i.rename moved).eval inputs many = i.eval inputs registers := by
  cases i with
  | select test a b c d => simp only [rename, eval, same, ← apply_ite moved]
  | _ => simp only [rename, eval, same]

/-- A mixed instruction that finds its plain number in a register does the same. -/
theorem Instruction.eval_withRegister [LawfulMonad M] [Carrier.LiftsPlain F T M]
    (same : ∀ r : Register, many[moved r]? = registers[r]?) {i : Instruction F} {c : F}
    (mixed : i.plain? = some c) {k : Register} (lifted : many[k]? = some (Carrier.lift c))
    (inputs : Inputs F T) :
    ((i.rename moved).withRegister k).eval inputs many = i.eval inputs registers := by
  cases i with
  | operateRight o a c =>
    cases mixed
    simp only [rename, withRegister, eval, same, lifted, fetch, pure_bind,
      Carrier.LiftsPlain.operateRight]
  | operateLeft o c a =>
    cases mixed
    simp only [rename, withRegister, eval, same, lifted, fetch, pure_bind,
      Carrier.LiftsPlain.operateLeft]
  | _ => cases mixed

/-- The outputs are selected alike. -/
theorem Output.select_rename (same : ∀ r : Register, many[moved r]? = registers[r]?)
    (outputs : List Output) :
    (select many (outputs.map (rename moved)) : M (List T)) = select registers outputs := by
  rw [select, List.foldlM_map, select]
  congr 1
  funext selected output
  cases output <;> simp only [rename, same]

namespace Lifting

variable [LawfulMonad M] [Carrier.LiftsPlain F T M]

/-- What becomes of one instruction does what the instruction does. -/
theorem runFrom_block (lifts : Nat → Option F) (inputs : Inputs F T) (registers : Array T)
    {i : Instruction F} (mixed : ∀ c, lifts registers.size = some c → i.plain? = some c)
    (rest : Program F) :
    Program.runFrom inputs (widen lifts registers) (block lifts i registers.size ++ rest) =
      i.eval inputs registers >>= fun a =>
        Program.runFrom inputs (widen lifts (registers.push a)) rest := by
  cases lifted : lifts registers.size with
  | none =>
    rw [block, lifted]
    dsimp only
    rw [List.singleton_append, Program.runFrom_cons, i.eval_rename (getElem?_widen lifts registers)]
    simp [widen_push, lifted]
  | some c =>
    -- When the operation runs, the constant stands behind the widened registers.
    have same := getElem?_widen_append lifts registers #[Carrier.lift c] (by simp [lifted])
    have found : (widen lifts registers ++ #[Carrier.lift c])[start lifts registers.size]? =
        some (Carrier.lift c) := by
      simp [← size_widen]
    rw [block, lifted]
    dsimp only
    rw [List.cons_append, List.singleton_append, Program.runFrom_cons, Instruction.eval, pure_bind,
      Array.push_eq_append, Program.runFrom_cons,
      i.eval_withRegister same (mixed c lifted) found]
    simp [widen_push, lifted]

/-- The rewritten program defines the registers of the program, at their places. -/
theorem runFrom_blocks (lifts : Nat → Option F) (inputs : Inputs F T) (registers : Array T)
    (program : Program F) (mixed : ∀ p ∈ program.zipIdx registers.size,
      ∀ c, lifts p.2 = some c → p.1.plain? = some c) :
    Program.runFrom inputs (widen lifts registers)
        ((program.zipIdx registers.size).flatMap fun (i, k) => block lifts i k) =
      widen lifts <$> Program.runFrom inputs registers program := by
  induction program generalizing registers with
  | nil => exact (map_pure ..).symm
  | cons i rest ih =>
    rw [List.zipIdx_cons, List.forall_mem_cons] at mixed
    rw [List.zipIdx_cons, List.flatMap_cons, runFrom_block lifts inputs registers mixed.1,
      Program.runFrom_cons, map_bind]
    congr 1
    funext a
    rw [← Array.size_push a]
    refine ih (registers.push a) ?_
    rw [Array.size_push]
    exact mixed.2

end Lifting

variable [LawfulMonad M] [Carrier.LiftsPlain F T M]

/-- The rewritten program does what the program does and has its registers, at their places. -/
theorem Program.run_liftPlain (program : Program F) (chosen : Nat → Bool) (inputs : Inputs F T) :
    (program.liftPlain chosen).run inputs =
      Lifting.widen (program.lifts chosen) <$> program.run inputs := by
  refine Lifting.runFrom_blocks (program.lifts chosen) inputs #[] program fun p listed c found => ?_
  rw [lifts_of_mem listed] at found
  split_ifs at found
  exact found

/-- The rewritten function does what the function does and has its values. -/
theorem Function.eval_liftPlain (f : Function F) (chosen : Nat → Bool) (inputs : Inputs F T) :
    (f.liftPlain chosen).eval inputs = f.eval inputs := by
  have same (registers : Array T) := Output.select_rename (M := M)
    (Lifting.getElem?_widen (f.program.lifts chosen) registers) f.outputs
  rw [eval, eval, liftPlain]
  dsimp only
  rw [Program.run_liftPlain, bind_map_left]
  simp only [same]

end Run

/-! ## The two kinds of numbers -/

/-- Constants among the operands leave no trace on a tape. -/
theorem Tape.push_congr (t : Tape F) {terms others : List (Index × F)}
    (same : terms.filter (fun (i, _) => i != Index.constant) =
      others.filter fun (i, _) => i != Index.constant) : t.push terms = t.push others := by
  unfold push
  rw [same]

theorem Traced.record_congr (value : F) {terms others : List (Index × F)}
    (same : terms.filter (fun (i, _) => i != Index.constant) =
      others.filter fun (i, _) => i != Index.constant) :
    record value terms = record value others := by
  have untracked (terms : List (Index × F)) : (terms.all fun (i, _) => i == Index.constant) =
      (terms.filter fun (i, _) => i != Index.constant).isEmpty := by
    rw [Bool.eq_iff_iff, List.isEmpty_iff, List.filter_eq_nil_iff, List.all_eq_true]
    simp
  have push : RecordM.push terms = RecordM.push others := by
    unfold RecordM.push
    simp only [fun t : Tape F => t.push_congr same]
  rw [record, record, untracked, untracked, same, push]

private theorem Traced.record_constant_right (value : F) (i : Index) (m k : F) :
    record value [(i, m), (Index.constant, k)] = record value [(i, m)] :=
  record_congr value (by simp [List.filter_cons])

private theorem Traced.record_constant_left (value : F) (i : Index) (m k : F) :
    record value [(Index.constant, k), (i, m)] = record value [(i, m)] :=
  record_congr value (by simp)

/-- The partial derivative by a constant is computed and then left out. -/
instance [Arith F] : Carrier.LiftsPlain F (Traced F) (RecordM F) where
  operateRight o a c := by
    cases o <;> exact (Traced.record_constant_right ..).symm
  operateLeft o c a := by
    cases o <;> exact (Traced.record_constant_left ..).symm

/-- A plain number on the right is a constant. -/
theorem Dual.operateRight_eq [ExactField F] (o : Operation) (a : Dual F) (c : F) :
    Dual.operateRight o a c = Dual.operate o a (Dual.constant c) := by
  cases o with
  | add => exact congrArg (Dual.mk _) (add_zero _).symm
  | sub => exact congrArg (Dual.mk _) (sub_zero _).symm
  | mul =>
    refine congrArg (Dual.mk _) ?_
    change a.tangent * c = a.primal * 0 + a.tangent * c
    ring
  | div =>
    refine congrArg₂ Dual.mk (div_eq_mul_one_div _ _) ?_
    change a.tangent / c = (a.tangent * c - a.primal * 0) * (1 / c) * (1 / c)
    obtain rfl | nonzero := eq_or_ne c 0
    · simp
    · field_simp
      ring

/-- A plain number on the left is a constant. -/
theorem Dual.operateLeft_eq [ExactField F] (o : Operation) (c : F) (a : Dual F) :
    Dual.operateLeft o c a = Dual.operate o (Dual.constant c) a := by
  cases o with
  | add => exact congrArg (Dual.mk _) (zero_add _).symm
  | sub => exact congrArg (Dual.mk _) (zero_sub _).symm
  | mul =>
    refine congrArg (Dual.mk _) ?_
    change c * a.tangent = c * a.tangent + 0 * a.primal
    ring
  | div =>
    refine congrArg (Dual.mk _) ?_
    change -c * a.tangent * (1 / a.primal) * (1 / a.primal) =
      (0 * a.primal - c * a.tangent) * (1 / a.primal) * (1 / a.primal)
    ring

instance [ExactField F] : Carrier.LiftsPlain F (Dual F) (Except Fault) where
  operateRight o a c := congrArg pure (Dual.operateRight_eq o a c)
  operateLeft o c a := congrArg pure (Dual.operateLeft_eq o c a)

namespace Lifting

/-- What a run leaves and what its rewritten form leaves: the same fault, or the same registers,
each at its place. -/
inductive Moved (place : Register → Register) :
    Except Fault (Array T) → Except Fault (Array T) → Prop
  | fault (f : Fault) : Moved place (.error f) (.error f)
  | registers {few many : Array T} (same : ∀ k : Register, many[place k]? = few[k]?) :
      Moved place (.ok few) (.ok many)

theorem moved_widen {M : Type → Type} [Carrier F T M] (lifts : Nat → Option F)
    (result : Except Fault (Array T)) : Moved (place lifts) result (widen lifts <$> result) := by
  cases result with
  | error f => exact .fault f
  | ok registers => exact .registers (getElem?_widen lifts registers)

end Lifting

/-- **Mixed operations are operations on lifted numbers.** Any choice of the mixed instructions of a
program can be written with lifted numbers, all of them included. In any arithmetic a run on traced
numbers then has the same values at the same places of the tape, leaves the same tape and ends in
the same fault, if it ends in one. In exact arithmetic a run on dual numbers has the same values and
tangents. On both kinds of numbers the outputs are the same. -/
theorem Function.liftPlain_unobserved :
    (∀ {F : Type} [Arith F] (f : Function F) (chosen : Nat → Bool) (inputs : Inputs F (Traced F))
      (r : Recorder F), (f.liftPlain chosen).eval inputs = f.eval inputs ∧
      ∃ result lifted after, (f.program.run inputs).run.run r = (result, after) ∧
        ((f.liftPlain chosen).program.run inputs).run.run r = (lifted, after) ∧
        Lifting.Moved (Lifting.place (f.program.lifts chosen)) result lifted) ∧
    (∀ {F : Type} [ExactField F] (f : Function F) (chosen : Nat → Bool)
      (inputs : Inputs F (Dual F)), (f.liftPlain chosen).eval inputs = f.eval inputs ∧
      Lifting.Moved (Lifting.place (f.program.lifts chosen)) (f.program.run inputs)
        ((f.liftPlain chosen).program.run inputs)) ∧
    ∀ {F : Type} (f : Function F),
      (f.liftPlain fun _ => true).program.all Instruction.isUnmixed = true := by
  refine ⟨?traced, ?dual, fun f => f.program.all_isUnmixed_liftPlain⟩
  case traced =>
    intro F _ f chosen inputs r
    refine ⟨f.eval_liftPlain chosen inputs, ?_⟩
    rcases ran : (f.program.run inputs).run.run r with ⟨result, after⟩
    refine ⟨result, _, after, rfl, ?_, Lifting.moved_widen (f.program.lifts chosen) result⟩
    rw [liftPlain]
    dsimp only
    rw [Program.run_liftPlain, map_eq_pure_bind]
    cases result with
    | error fault => exact run_bind_of_error ran
    | ok registers => exact run_bind_of_ok ran
  case dual =>
    intro F _ f chosen inputs
    refine ⟨f.eval_liftPlain chosen inputs, ?_⟩
    rw [liftPlain]
    dsimp only
    rw [Program.run_liftPlain]
    exact Lifting.moved_widen ..

end ImplicitDiff
