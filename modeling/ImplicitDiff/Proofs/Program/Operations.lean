import Mathlib.Tactic
import ImplicitDiff.Proofs.Effects
import ImplicitDiff.Program.Basic

/-! # What one operation records

An operation on traced numbers looks up its operands and records at most one statement, with one
term for each operand. Whatever else an instruction does, it does not record. So a computation with
one instruction either ends well or leaves the tape and the journal as they were.
-/

namespace ImplicitDiff

variable {F α β : Type}

/-- The registers that an operation is applied to. An instruction that is no operation has none. -/
def Instruction.operands : Instruction F → List Register
  | .neg a | .elementary _ a | .operateRight _ a _ | .operateLeft _ _ a => [a]
  | .operate _ a b => [a, b]
  | .unknown _ | .parameter _ | .real _ | .integer _ | .constant _ | .detach _ | .select .. => []

/-- Only an operation with a tracked operand needs a tape. -/
theorem Traced.record_eq {value : F} {terms : List (Index × F)} {operands : List (Traced F)}
    (same : terms.map Prod.fst = operands.map index) :
    record value terms = if operands.any isTracked then
      (do return { value, index := ← RecordM.push terms }) else pure (constant value) := by
  have places : (terms.all fun t => t.1 == Index.constant) = !operands.any isTracked := by
    have first : (terms.all fun t => t.1 == Index.constant) =
        (terms.map Prod.fst).all (· == Index.constant) := by
      rw [List.all_map]
      rfl
    rw [first, same, List.all_map, List.not_any_eq_all_not]
    exact List.all_congr rfl fun a => (Bool.not_not _).symm
  change (if terms.all fun t => t.1 == Index.constant then _ else _) = _
  rw [places]
  cases operands.any isTracked <;> rfl

/-- With a tape, a node is recorded if the tape takes it. -/
theorem RecordM.run_pushNode (n : Node F) (t : Tape F) (journal : Journal F) :
    (RecordM.pushNode n).run.run ⟨some t, journal⟩ =
      match t.pushNode n with
      | .ok recorded => (.ok t.size, ⟨some recorded, journal⟩)
      | .error fault => (.error fault, ⟨some t, journal⟩) := rfl

/-! ## Computations that fail without a trace -/

/-- Unless the computation succeeds, the tape and the journal stay as they are. -/
def RecordM.FailsCleanly (m : RecordM F α) : Prop := ∀ r fault last,
  m.run.run r = (.error fault, last) → last = r

namespace RecordM.FailsCleanly

variable {m : RecordM F α} {f : α → RecordM F β}

theorem pure (a : α) : FailsCleanly (Pure.pure a : RecordM F α) := fun _ _ _ ran => nomatch ran

theorem fetch (found : Option α) : FailsCleanly (fetch found : RecordM F α) := by
  cases found with
  | none =>
    intro r fault last ran
    exact (Prod.mk.inj ran).2.symm
  | some a => exact pure a

theorem fetch_bind (found : Option α) (next : ∀ a, FailsCleanly (f a)) :
    FailsCleanly (ImplicitDiff.fetch found >>= f) := by
  cases found with
  | none =>
    intro r fault last ran
    exact (Prod.mk.inj ran).2.symm
  | some a =>
    change FailsCleanly (Pure.pure a >>= f)
    rw [pure_bind]
    exact next a

theorem map (clean : FailsCleanly m) (g : α → β) :
    FailsCleanly (m >>= fun a => Pure.pure (g a)) := by
  intro r fault last ran
  rcases first : m.run.run r with ⟨result, t⟩
  cases result with
  | error other =>
    cases (run_bind_of_error first).symm.trans ran
    exact clean r _ _ first
  | ok a => cases (run_bind_of_ok first).symm.trans ran

theorem push (terms : List (Index × F)) : FailsCleanly (RecordM.push terms) := by
  rintro ⟨_ | t, journal⟩ fault last ran
  · exact (Prod.mk.inj ran).2.symm
  · cases ran

theorem pushNode (n : Node F) : FailsCleanly (RecordM.pushNode n) := by
  rintro ⟨_ | t, journal⟩ fault last ran
  · exact (Prod.mk.inj ran).2.symm
  · rw [run_pushNode] at ran
    cases pushed : t.pushNode n with
    | ok next =>
      rw [pushed] at ran
      cases ran
    | error other =>
      rw [pushed] at ran
      exact (Prod.mk.inj ran).2.symm

theorem record (value : F) (terms : List (Index × F)) :
    FailsCleanly (Traced.record value terms) := by
  unfold Traced.record
  split_ifs
  · exact pure _
  · exact (push terms).map _

end RecordM.FailsCleanly

/-! ## Instructions -/

variable [Arith F]

/-- An operation records its value, with one term for each operand. -/
theorem Instruction.exists_record {i : Instruction F} {registers : Array (Traced F)}
    {operands : List (Traced F)} (operation : i.operands ≠ [])
    (found : List.Forall₂ (fun a x => registers[a]? = some x) i.operands operands)
    (inputs : Inputs F (Traced F)) :
    ∃ value terms, terms.map Prod.fst = operands.map Traced.index ∧
      i.eval inputs registers = Traced.record value terms := by
  cases i with
  | neg a | elementary f a =>
    obtain _ | ⟨here, _ | _⟩ := found
    rw [eval, here]
    exact ⟨_, [(_, _)], rfl, rfl⟩
  | operateRight o a c | operateLeft o c a =>
    obtain _ | ⟨here, _ | _⟩ := found
    rw [eval, here]
    cases o <;> exact ⟨_, [(_, _)], rfl, rfl⟩
  | operate o a b =>
    obtain _ | ⟨here, _ | ⟨there, _ | _⟩⟩ := found
    rw [eval, here, there]
    cases o <;> exact ⟨_, [(_, _), (_, _)], rfl, rfl⟩
  | _ => exact absurd rfl operation

theorem Instruction.failsCleanly (inputs : Inputs F (Traced F)) (registers : Array (Traced F))
    (i : Instruction F) : (i.eval inputs registers).FailsCleanly := by
  cases i with
  | unknown i | parameter i => exact .fetch _
  | constant c => exact .pure _
  | real i | integer i | detach a => exact .fetch_bind _ fun _ => .pure _
  | neg a => exact .fetch_bind _ fun _ => .record _ _
  | elementary f a => exact .fetch_bind _ fun _ => .record _ _
  | operateRight o a c | operateLeft o c a =>
    exact .fetch_bind _ fun _ => by cases o <;> exact .record _ _
  | operate o a b =>
    exact .fetch_bind _ fun _ => .fetch_bind _ fun _ => by cases o <;> exact .record _ _
  | select test a b c d => exact .fetch_bind _ fun _ => .fetch_bind _ fun _ => .fetch _

end ImplicitDiff
