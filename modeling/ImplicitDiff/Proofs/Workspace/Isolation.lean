import Mathlib.Tactic
import ImplicitDiff.Workspace.Basic
import ImplicitDiff.Proofs.Program.Operations
import ImplicitDiff.Proofs.Solver.Atomicity
import ImplicitDiff.Proofs.Tape.History

/-! # Nested activations and what is recorded where

Each activation keeps only what it replaced. Over a sequence of commands these marks form a chain
that mirrors the stack of live activations, so ending one always gives back the tape of the next
older one, however often one tape occurs. A command changes one tape at most: the one that it names,
or the active one if it records there. What fails changes nothing, and not because something is
taken back: the computation that failed left the active tape alone.
-/

namespace ImplicitDiff

variable {F : Type}

/-- The live activations after a command that succeeds, the newest first. -/
def Command.guards (guards : List Nat) : Command F → List Nat
  | .activate number => number :: guards
  | .deactivate => guards.tail
  | _ => guards

/-- The tape that a command may change: the one that it names, or the active one if it records
there. -/
def Command.target (active : Option Nat) : Command F → Option Nat
  | .variable number _ | .push number _ | .pushNode number _ _ => some number
  | .instruction _ | .pushNodeActive _ _ | .solve .. => active
  | _ => none

/-- The live activations after commands with these answers, from those before, the newest first. -/
def liveGuards (guards : List Nat) :
    List (Command F) → List (Except Fault (Answer F) × Journal F) → List Nat
  | command :: commands, (.ok _, _) :: answers =>
    liveGuards (command.guards guards) commands answers
  | _ :: commands, (.error _, _) :: answers => liveGuards guards commands answers
  | _, _ => guards

/-- A tape with one variable and one statement more, which keeps the tracked operands among the
terms. All that was there stands in front. -/
structure Tape.GrowsBy (t : Tape F) (terms : List (Index × F)) (u : Tape F) : Prop where
  places : u.size = t.size + 1
  statements : u.statements =
    t.statements.push { result := t.size, stop := u.multipliers.size.toUInt32 }
  operands : u.operands.toList =
    t.operands.toList ++ (terms.map Prod.fst).filter (· != Index.constant)
  multipliers : u.multipliers.toList =
    t.multipliers.toList ++ (terms.filter (·.1 != Index.constant)).map Prod.snd

theorem Tape.GrowsBy.push (t : Tape F) (terms : List (Index × F)) :
    t.GrowsBy terms (t.push terms) where
  places := rfl
  statements := rfl
  operands := by
    rw [List.filter_map]
    exact Array.toList_appendList
  multipliers := Array.toList_appendList

namespace Workspace

/-! ## The chain of activations -/

/-- The live activations are chained up in the workspace. -/
structure Nested (guards : List Nat) (w : Workspace F) : Prop where
  /-- The newest one determines the active tape. -/
  active : w.active = guards.head?
  /-- Each one replaced the next older one. -/
  replaced : w.replaced = guards.tails.tail.map List.head?
  /-- Their tapes exist. -/
  known : ∀ number ∈ guards, number < w.tapes.size

theorem map_head?_tails (guards : List Nat) :
    guards.tails.map List.head? = guards.head? :: guards.tails.tail.map List.head? := by
  cases guards <;> rfl

namespace Nested

variable {guards : List Nat} {w next : Workspace F} {number : Nat}

theorem blank : Nested [] ({} : Workspace F) where
  active := rfl
  replaced := rfl
  known := List.forall_mem_nil _

theorem activate (nested : Nested guards w) (known : number < w.tapes.size) :
    Nested (number :: guards) (w.activate number) where
  active := rfl
  replaced := by
    rw [List.tails_cons, List.tail_cons, map_head?_tails, ← nested.active, ← nested.replaced]
    rfl
  known := List.forall_mem_cons.mpr ⟨known, nested.known⟩

theorem deactivate (nested : Nested guards w) : Nested guards.tail w.deactivate := by
  obtain ⟨active, replaced, known⟩ := nested
  cases guards with
  | nil =>
    have idle : w.deactivate = w := by
      rw [Workspace.deactivate, replaced]
      rfl
    rw [idle]
    exact ⟨active, replaced, known⟩
  | cons guard guards =>
    rw [List.tails_cons, List.tail_cons, map_head?_tails] at replaced
    rw [Workspace.deactivate, replaced]
    exact ⟨rfl, rfl, (List.forall_mem_cons.mp known).2⟩

/-- Activations stay where they are as long as no tape is lost. -/
theorem keep (nested : Nested guards w) (active : next.active = w.active)
    (replaced : next.replaced = w.replaced) (tapes : w.tapes.size ≤ next.tapes.size) :
    Nested guards next where
  active := active.trans nested.active
  replaced := replaced.trans nested.replaced
  known number member := (nested.known number member).trans_le tapes

/-- The active tape is that of the newest live activation. -/
theorem activeTape_eq (nested : Nested guards w) :
    w.activeTape = guards.head?.bind (w.tapes[·]?) := by
  rw [activeTape, nested.active]

private theorem activeTape_nil (nested : Nested [] w) : w.activeTape = none := nested.activeTape_eq

end Nested

/-! ## What a command does -/

/-- What a command that succeeds did to a workspace. -/
inductive Performed (w : Workspace F) : Command F → Workspace F → Prop
  /-- There is one tape more. -/
  | newTape : Performed w .newTape { w with tapes := w.tapes.push {} }
  /-- A tape is active that exists. -/
  | activate {number : Nat} (known : number < w.tapes.size) :
    Performed w (.activate number) (w.activate number)
  /-- The newest activation is over. -/
  | deactivate : Performed w .deactivate w.deactivate
  /-- The tape that the command may change is another one. -/
  | wrote {command : Command F} {number : Nat} (t : Tape F) (values : List (Traced F))
    (same : ∀ guards, command.guards guards = guards)
    (target : command.target w.active = some number) :
    Performed w command ((w.setTape number t).addRegisters values)
  /-- All tapes are as before. -/
  | kept {command : Command F} (values : List (Traced F))
    (same : ∀ guards, command.guards guards = guards) :
    Performed w command (w.addRegisters values)

variable {guards : List Nat} {w next : Workspace F} {command : Command F}

theorem addRegisters_nil (w : Workspace F) : w.addRegisters [] = w :=
  congrArg (fun registers => { w with registers }) Array.appendList_nil

theorem setActiveTape_none (w : Workspace F) : w.setActiveTape none = w := by
  simp [setActiveTape]

theorem setActiveTape_of_inactive (inactive : w.active = none) (t : Option (Tape F)) :
    w.setActiveTape t = w := by
  simp [setActiveTape, inactive]

theorem setActiveTape_some {number : Nat} (active : w.active = some number) (t : Tape F) :
    w.setActiveTape (some t) = w.setTape number t := by
  simp [setActiveTape, active]

/-- A tape that stays as it is may be put back. -/
theorem setActiveTape_activeTape (w : Workspace F) : w.setActiveTape w.activeTape = w := by
  rcases active : w.active with _ | number
  · exact setActiveTape_of_inactive active _
  · rcases here : w.tapes[number]? with _ | t
    · rw [activeTape, active, Option.bind_some, here, setActiveTape_none]
    · obtain ⟨inside, rfl⟩ := Array.getElem?_eq_some_iff.mp here
      rw [activeTape, active, Option.bind_some, here, setActiveTape_some active, setTape]
      simp [Array.setIfInBounds, inside]

namespace Performed

theorem unchanged (same : ∀ guards, command.guards guards = guards) : Performed w command w := by
  have kept : Performed w command (w.addRegisters []) := .kept [] same
  rwa [addRegisters_nil] at kept

theorem wroteTape {number : Nat} (t : Tape F) (same : ∀ guards, command.guards guards = guards)
    (target : command.target w.active = some number) :
    Performed w command (w.setTape number t) := by
  rw [← addRegisters_nil (w.setTape number t)]
  exact .wrote t [] same target

theorem recorded (t : Option (Tape F)) (values : List (Traced F))
    (same : ∀ guards, command.guards guards = guards)
    (target : command.target w.active = w.active) :
    Performed w command ((w.setActiveTape t).addRegisters values) := by
  rcases active : w.active with _ | number
  · rw [setActiveTape_of_inactive active]
    exact .kept values same
  · cases t with
    | none =>
      rw [setActiveTape_none]
      exact .kept values same
    | some t =>
      rw [setActiveTape_some active]
      exact .wrote t values same (target.trans active)

private theorem recordedTape (t : Option (Tape F)) (same : ∀ guards, command.guards guards = guards)
    (target : command.target w.active = w.active) : Performed w command (w.setActiveTape t) := by
  rw [← addRegisters_nil (w.setActiveTape t)]
  exact .recorded t [] same target

theorem nested (done : Performed w command next) (nested : Nested guards w) :
    Nested (command.guards guards) next := by
  cases done with
  | newTape => exact nested.keep rfl rfl (by simp)
  | activate known => exact nested.activate known
  | deactivate => exact nested.deactivate
  | wrote t values same target =>
    rw [same]
    exact nested.keep rfl rfl (by simp [setTape, addRegisters])
  | kept values same =>
    rw [same]
    exact nested.keep rfl rfl le_rfl

/-- No other tape changes. -/
theorem frame (done : Performed w command next) {number : Nat} (inside : number < w.tapes.size)
    (other : command.target w.active ≠ some number) : next.tapes[number]? = w.tapes[number]? := by
  cases done with
  | newTape => exact Array.getElem?_push_lt inside ▸ (Array.getElem?_eq_getElem inside).symm
  | activate known => rfl
  | deactivate =>
    unfold Workspace.deactivate
    split <;> rfl
  | wrote t values same target =>
    refine Array.getElem?_setIfInBounds_ne fun here => other ?_
    rw [target, here]
  | kept values same => rfl

end Performed

theorem run_record {α : Type} (w : Workspace F) (body : RecordM F α) (journal : Journal F) :
    (w.record body).run.run journal =
      let (result, recorder) := body.run.run ⟨w.activeTape, journal⟩
      (result.map fun a => (a, w.setActiveTape recorder.tape), recorder.journal) := rfl

theorem record_eq_ok {α : Type} {body : RecordM F α} {a : α} {journal after : Journal F}
    (ran : (w.record body).run.run journal = (.ok (a, next), after)) :
    ∃ t, next = w.setActiveTape t ∧ body.run.run ⟨w.activeTape, journal⟩ = (.ok a, ⟨t, after⟩) := by
  rw [run_record] at ran
  rcases made : body.run.run ⟨w.activeTape, journal⟩ with ⟨fault | b, t, more⟩
  · rw [made] at ran
    cases ran
  · rw [made] at ran
    cases ran
    exact ⟨t, rfl, rfl⟩

/-- A body that records on the active tape, as part of a command. -/
theorem record_of_ok {α : Type} {body : RecordM F α} {a : α} {last : Recorder F}
    {journal : Journal F} (made : body.run.run ⟨w.activeTape, journal⟩ = (.ok a, last)) :
    (w.record body).run.run journal = (.ok (a, w.setActiveTape last.tape), last.journal) := by
  rw [run_record, made]
  rfl

private theorem record_pushNode (w : Workspace F) (node : Node F) :
    EndsIn (w.record (RecordM.pushNode node)) (do
      let some t := w.activeTape | .error .noActiveTape
      let next ← t.pushNode node
      return (t.size, w.setActiveTape (some next))) := by
  refine ⟨#[], fun journal => ?_⟩
  rw [run_record, Array.append_empty]
  rcases active : w.activeTape with _ | t
  · rfl
  · rw [RecordM.run_pushNode]
    cases pushed : t.pushNode node <;> simp only [pushed] <;> rfl

/-- A command fails with a fault, or with the answer of a solve. -/
def Fails (result : Except Fault (Answer F)) : Prop :=
  (∃ fault, result = .error fault) ∨ ∃ cause, result = .ok (.failed cause)

theorem not_fails {answer : Answer F} (other : ∀ cause, answer ≠ .failed cause) :
    ¬Fails (.ok answer)
  | .inl ⟨_, ended⟩ => nomatch ended
  | .inr ⟨cause, ended⟩ => other cause (Except.ok.inj ended)

variable [Arith F]

/-- **What a command does**, if it succeeds. A solve may succeed with a failure as its answer, and
changes nothing then. -/
theorem performed {answer : Answer F} {journal after : Journal F}
    (ran : (w.perform command).run.run journal = (.ok (answer, next), after)) :
    Performed w command next ∧ ∀ cause, answer = .failed cause → next = w := by
  cases command with
  | newTape =>
    cases ran
    exact ⟨.newTape, nofun⟩
  | register value =>
    cases ran
    exact ⟨.kept [value] fun _ => rfl, nofun⟩
  | deactivate =>
    cases ran
    exact ⟨.deactivate, nofun⟩
  | isActive =>
    cases ran
    exact ⟨.unchanged fun _ => rfl, nofun⟩
  | activate number =>
    obtain ⟨t, s, found, last⟩ := run_bind_eq_ok_iff.mp ran
    cases last
    have here := fetch_eq_ok_iff.mp (congrArg Prod.fst found)
    exact ⟨.activate (Array.getElem?_eq_some_iff.mp here).1, nofun⟩
  | «variable» number value =>
    obtain ⟨t, s, -, last⟩ := run_bind_eq_ok_iff.mp ran
    cases last
    exact ⟨.wrote _ _ (fun _ => rfl) rfl, nofun⟩
  | push number terms =>
    obtain ⟨t, s, -, last⟩ := run_bind_eq_ok_iff.mp ran
    cases last
    exact ⟨.wroteTape _ (fun _ => rfl) rfl, nofun⟩
  | pushNode number params sensitivity =>
    obtain ⟨node, _, -, ran⟩ := run_bind_eq_ok_iff.mp ran
    obtain ⟨t, _, -, ran⟩ := run_bind_eq_ok_iff.mp ran
    obtain ⟨u, _, -, last⟩ := run_bind_eq_ok_iff.mp ran
    cases last
    exact ⟨.wroteTape _ (fun _ => rfl) rfl, nofun⟩
  | node params sensitivity | read a | nodes number | counts number =>
    obtain ⟨_, _, -, last⟩ := run_bind_eq_ok_iff.mp ran
    cases last
    exact ⟨.unchanged fun _ => rfl, nofun⟩
  | sweepFrom number place | sweep number seeds | compare a b =>
    obtain ⟨_, _, -, ran⟩ := run_bind_eq_ok_iff.mp ran
    obtain ⟨_, _, -, last⟩ := run_bind_eq_ok_iff.mp ran
    cases last
    exact ⟨.unchanged fun _ => rfl, nofun⟩
  | instruction i =>
    obtain ⟨⟨_, _⟩, _, recorded, last⟩ := run_bind_eq_ok_iff.mp ran
    obtain ⟨t, rfl, -⟩ := record_eq_ok recorded
    cases last
    exact ⟨.recorded t _ (fun _ => rfl) rfl, nofun⟩
  | pushNodeActive params sensitivity =>
    obtain ⟨_, _, -, ran⟩ := run_bind_eq_ok_iff.mp ran
    obtain ⟨⟨_, _⟩, _, recorded, last⟩ := run_bind_eq_ok_iff.mp ran
    obtain ⟨t, rfl, -⟩ := record_eq_ok recorded
    cases last
    exact ⟨.recordedTape t (fun _ => rfl) rfl, nofun⟩
  | solve equations guess parameters data settings =>
    obtain ⟨_, _, -, ran⟩ := run_bind_eq_ok_iff.mp ran
    obtain ⟨⟨result, _⟩, _, recorded, last⟩ := run_bind_eq_ok_iff.mp ran
    obtain ⟨t, rfl, -⟩ := record_eq_ok recorded
    cases result with
    | ok unknowns =>
      cases last
      exact ⟨.recorded t _ (fun _ => rfl) rfl, nofun⟩
    | error cause =>
      cases last
      exact ⟨.unchanged fun _ => rfl, fun _ _ => rfl⟩

/-- What comes of a command, and the workspace after it. -/
def after (w : Workspace F) (command : Command F) : Except Fault (Answer F) × Workspace F :=
  match ((w.perform command).run.run #[]).1 with
  | .ok (answer, next) => (.ok answer, next)
  | .error fault => (.error fault, w)

theorem after_of_ok {answer : Answer F} {journal : Journal F}
    (ran : (w.perform command).run.run #[] = (.ok (answer, next), journal)) :
    w.after command = (.ok answer, next) := by
  rw [after, ran]

theorem after_of_error {fault : Fault} {journal : Journal F}
    (ran : (w.perform command).run.run #[] = (.error fault, journal)) :
    w.after command = (.error fault, w) := by
  rw [after, ran]

private theorem performAll_cons (w : Workspace F) (command : Command F)
    (commands : List (Command F)) :
    w.performAll (command :: commands) =
      let (answers, last) := (w.after command).2.performAll commands
      (((w.after command).1, ((w.perform command).run.run #[]).2) :: answers, last) := by
  rw [performAll, after]
  rcases (w.perform command).run.run #[] with ⟨fault | ⟨answer, next⟩, journal⟩ <;> rfl

/-- The active tape as the body of a command leaves it, before it is known whether that is kept. -/
def tapeLeft (w : Workspace F) : Command F → Option (Tape F)
  | .instruction i => ((i.eval {} w.registers).run.run { tape := w.activeTape }).2.tape
  | .pushNodeActive params sensitivity =>
    match Node.build params sensitivity with
    | .ok node => ((RecordM.pushNode node).run.run { tape := w.activeTape }).2.tape
    | .error _ => w.activeTape
  | .solve equations guess parameters data settings =>
    match (parameters.mapM fun a => fetch w.registers[a]? : SearchM F _).run.run #[] with
    | (.ok values, journal) =>
      ((Solver.solveTraced equations guess values data settings).run.run.run
        { tape := w.activeTape, journal }).2.tape
    | (.error _, _) => w.activeTape
  | _ => w.activeTape

private theorem after_nested (nested : Nested guards w) (command : Command F) :
    Nested (match (w.after command).1 with
      | .ok _ => command.guards guards
      | .error _ => guards) (w.after command).2 := by
  rcases ran : (w.perform command).run.run #[] with ⟨fault | ⟨answer, next⟩, journal⟩
  · rw [after_of_error ran]
    exact nested
  · rw [after_of_ok ran]
    exact (performed ran).1.nested nested

private theorem after_frame (w : Workspace F) (command : Command F) {number : Nat}
    (inside : number < w.tapes.size) (other : command.target w.active ≠ some number) :
    (w.after command).2.tapes[number]? = w.tapes[number]? := by
  rcases ran : (w.perform command).run.run #[] with ⟨fault | ⟨answer, next⟩, journal⟩
  · rw [after_of_error ran]
  · rw [after_of_ok ran]
    exact (performed ran).1.frame inside other

private theorem after_of_fails (fails : Fails (w.after command).1) : (w.after command).2 = w := by
  rcases ran : (w.perform command).run.run #[] with ⟨fault | ⟨answer, next⟩, journal⟩
  · rw [after_of_error ran]
  · rw [after_of_ok ran] at fails ⊢
    obtain ⟨_, ended⟩ | ⟨cause, same⟩ := fails
    · cases ended
    · exact (performed ran).2 cause (Except.ok.inj same)

private theorem tapeLeft_of_fails (fails : Fails (w.after command).1) :
    w.tapeLeft command = w.activeTape := by
  cases command with
  | instruction i =>
    rcases made : (i.eval {} w.registers).run.run { tape := w.activeTape } with ⟨fault | a, last⟩
    · rw [tapeLeft, made, i.failsCleanly {} w.registers _ _ _ made]
    · have ran : (w.perform (.instruction i)).run.run #[] = _ := run_bind_of_ok (record_of_ok made)
      rw [after_of_ok ran] at fails
      exact absurd fails (not_fails fun _ same => by cases same)
  | pushNodeActive params sensitivity =>
    rcases built : Node.build params sensitivity with fault | node
    · rw [tapeLeft, built]
    · rcases made : (RecordM.pushNode node).run.run { tape := w.activeTape } with ⟨fault | a, last⟩
      · rw [tapeLeft, built]
        dsimp only
        rw [made, RecordM.FailsCleanly.pushNode node _ _ _ made]
      · have ran : (w.perform (.pushNodeActive params sensitivity)).run.run #[] = _ :=
          (run_ofExcept_bind built _ _).trans (run_bind_of_ok (record_of_ok made))
        rw [after_of_ok ran] at fails
        exact absurd fails (not_fails fun _ same => by cases same)
  | solve equations guess parameters data settings =>
    rcases read : (parameters.mapM fun a => fetch w.registers[a]? : SearchM F _).run.run #[] with
      ⟨fault | values, journal⟩
    · rw [tapeLeft, read]
    · rw [tapeLeft, read]
      refine Solver.solveTraced_atomic equations guess values data settings _ ?_
      intro unknowns solved
      rcases made : (Solver.solveTraced equations guess values data settings).run.run.run
        { tape := w.activeTape, journal } with ⟨result, last⟩
      rw [made] at solved
      obtain rfl : result = .ok (.ok unknowns) := solved
      have ran : (w.perform (.solve equations guess parameters data settings)).run.run #[] = _ :=
        (run_bind_of_ok read).trans (run_bind_of_ok (record_of_ok made))
      rw [after_of_ok ran] at fails
      exact absurd fails (not_fails fun _ same => by cases same)
  | _ => rfl

/-! ## Operations -/

section Operation

variable {i : Instruction F} {operands : List (Traced F)}

omit [Arith F] in
theorem operands_ne_nil
    (found : List.Forall₂ (fun a x => w.registers[a]? = some x) i.operands operands)
    (tracked : operands.any Traced.isTracked = true) : i.operands ≠ [] := by
  intro none
  rw [none] at found
  cases found
  cases tracked

/-- With an active tape an operation on a tracked operand appends one variable to it. -/
theorem after_tracked {number : Nat} {t : Tape F} (active : w.active = some number)
    (here : w.tapes[number]? = some t)
    (found : List.Forall₂ (fun a x => w.registers[a]? = some x) i.operands operands)
    (tracked : operands.any Traced.isTracked = true) :
    ∃ value terms, i.eval {} w.registers = Traced.record value terms ∧
      terms.map Prod.fst = operands.map Traced.index ∧
      w.after (.instruction i) = (.ok (.added ⟨value, t.size⟩),
        (w.setTape number (t.push terms)).addRegisters [⟨value, t.size⟩]) := by
  obtain ⟨value, terms, same, eval⟩ :=
    Instruction.exists_record (operands_ne_nil found tracked) found {}
  have made : (i.eval {} w.registers).run.run { tape := w.activeTape } =
      (.ok ⟨value, t.size⟩, ⟨some (t.push terms), #[]⟩) := by
    rw [eval, Traced.record_eq same, if_pos tracked, activeTape, active, Option.bind_some, here]
    rfl
  have ran : (w.perform (.instruction i)).run.run #[] = _ := run_bind_of_ok (record_of_ok made)
  rw [setActiveTape_some active] at ran
  exact ⟨value, terms, eval, same, after_of_ok ran⟩

/-- Without one it is refused. -/
theorem after_inactive (inactive : w.activeTape = none)
    (found : List.Forall₂ (fun a x => w.registers[a]? = some x) i.operands operands)
    (tracked : operands.any Traced.isTracked = true) :
    w.after (.instruction i) = (.error .noActiveTape, w) := by
  obtain ⟨value, terms, same, eval⟩ :=
    Instruction.exists_record (operands_ne_nil found tracked) found {}
  rw [Traced.record_eq same, if_pos tracked] at eval
  have made : (w.record (i.eval {} w.registers)).run.run #[] = (.error .noActiveTape, #[]) := by
    rw [run_record, eval, inactive]
    rfl
  have ran : (w.perform (.instruction i)).run.run #[] = _ := run_bind_of_error made
  exact after_of_error ran

/-- On constants alone it gives a constant. -/
theorem after_untracked (operation : i.operands ≠ [])
    (found : List.Forall₂ (fun a x => w.registers[a]? = some x) i.operands operands)
    (untracked : operands.any Traced.isTracked = false) :
    ∃ value, w.after (.instruction i) =
      (.ok (.added (Traced.constant value)), w.addRegisters [Traced.constant value]) := by
  obtain ⟨value, terms, same, eval⟩ := Instruction.exists_record operation found {}
  rw [Traced.record_eq same, untracked, if_neg Bool.false_ne_true] at eval
  have made : (i.eval {} w.registers).run.run { tape := w.activeTape } =
      (.ok (Traced.constant value), { tape := w.activeTape }) := by
    rw [eval]
    rfl
  have ran : (w.perform (.instruction i)).run.run #[] = _ := run_bind_of_ok (record_of_ok made)
  rw [setActiveTape_activeTape] at ran
  exact ⟨value, after_of_ok ran⟩

end Operation

/-! ## Nodes -/

/-- A node goes on a tape if its block fits its parameters and these are on the tape. -/
def Accepts (t : Option (Tape F)) (params : List Index) (sensitivity : Rows F) : Prop :=
  sensitivity ≠ [] ∧ (∀ row ∈ sensitivity, row.length = params.length) ∧
    ∃ tape, t = some tape ∧ ∀ p ∈ params, tape.Knows p

theorem exists_answer_iff {result : Except Fault (Answer F × Workspace F)}
    (ended : EndsIn (w.perform command) result) :
    (∃ answer, (w.after command).1 = .ok answer) ↔ ∃ done, result = .ok done := by
  obtain ⟨events, ran⟩ := ended
  cases result with
  | error fault =>
    rw [after_of_error (ran #[])]
    exact iff_of_false (fun ⟨_, other⟩ => nomatch other) fun ⟨_, other⟩ => nomatch other
  | ok done =>
    rw [after_of_ok (ran #[])]
    exact iff_of_true ⟨_, rfl⟩ ⟨_, rfl⟩

private theorem after_pushNode (w : Workspace F) (number : Nat) (params : List Index)
    (sensitivity : Rows F) :
    (∃ answer, (w.after (.pushNode number params sensitivity)).1 = .ok answer) ↔
      Accepts w.tapes[number]? params sensitivity := by
  have ended : EndsIn (w.perform (.pushNode number params sensitivity)) _ :=
    .bind (.ofExcept (Node.build params sensitivity)) fun node =>
      .bind (.ofExcept (w.tape number)) fun t => .bind (.ofExcept (t.pushNode node)) fun next =>
        .pure (Answer.place t.size, w.setTape number next)
  simp only [exists_answer_iff ended, except_bind_eq_ok_iff, Node.build_eq_ok_iff]
  constructor
  · rintro ⟨_, node, ⟨some, wide, rfl⟩, t, here, next, pushed, -⟩
    exact ⟨some, wide, t, fetch_eq_ok_iff.mp here, (Tape.pushNode_eq_ok_iff.mp pushed).1⟩
  · rintro ⟨some, wide, t, here, known⟩
    exact ⟨_, _, ⟨some, wide, rfl⟩, t, fetch_eq_ok_iff.mpr here, _,
      Tape.pushNode_eq_ok_iff.mpr ⟨known, rfl⟩, rfl⟩

private theorem after_pushNodeActive (w : Workspace F) (params : List Index)
    (sensitivity : Rows F) :
    (∃ answer, (w.after (.pushNodeActive params sensitivity)).1 = .ok answer) ↔
      Accepts w.activeTape params sensitivity := by
  have ended : EndsIn (w.perform (.pushNodeActive params sensitivity)) _ :=
    .bind (.ofExcept (Node.build params sensitivity)) fun node =>
      .bind (record_pushNode w node) fun placed =>
        .pure (Answer.place placed.1, placed.2)
  simp only [exists_answer_iff ended, except_bind_eq_ok_iff, Node.build_eq_ok_iff]
  rcases w.activeTape with _ | t
  · refine iff_of_false ?_ fun ⟨_, _, t, other, _⟩ => nomatch other
    rintro ⟨_, _, -, _, ended, -⟩
    cases ended
  · constructor
    · rintro ⟨_, node, ⟨some, wide, rfl⟩, _, pushed, -⟩
      obtain ⟨next, pushed, -⟩ := except_bind_eq_ok_iff.mp pushed
      exact ⟨some, wide, t, rfl, (Tape.pushNode_eq_ok_iff.mp pushed).1⟩
    · rintro ⟨some, wide, _, ⟨⟩, known⟩
      exact ⟨_, _, ⟨some, wide, rfl⟩, _, except_bind_eq_ok_iff.mpr
        ⟨_, Tape.pushNode_eq_ok_iff.mpr ⟨known, rfl⟩, rfl⟩, rfl⟩

/-! ## Sequences of commands -/

/-- What a command may do, given the live activations, the newest first. -/
structure Isolated (guards : List Nat) (w : Workspace F) (command : Command F)
    (result : Except Fault (Answer F)) (next : Workspace F) : Prop where
  /-- An operation with a tracked operand appends one variable and one statement to the tape of the
  newest live activation, with its own terms and behind all that is there. -/
  tracked {i : Instruction F} {operands : List (Traced F)} {number : Nat} {live : List Nat} :
    command = .instruction i →
    List.Forall₂ (fun a x => w.registers[a]? = some x) i.operands operands →
    operands.any Traced.isTracked = true → guards = number :: live →
    ∃ t u value terms, w.tapes[number]? = some t ∧
      i.eval {} w.registers = Traced.record value terms ∧
      terms.map Prod.fst = operands.map Traced.index ∧ u = t.push terms ∧ t.GrowsBy terms u ∧
      result = .ok (.added ⟨value, t.size⟩) ∧
      next = (w.setTape number u).addRegisters [⟨value, t.size⟩]
  /-- If no activation is live, it fails. -/
  inactive {i : Instruction F} {operands : List (Traced F)} : command = .instruction i →
    List.Forall₂ (fun a x => w.registers[a]? = some x) i.operands operands →
    operands.any Traced.isTracked = true → guards = [] →
    result = .error .noActiveTape ∧ next = w
  /-- An operation on constants alone gives a constant and changes no tape. -/
  untracked {i : Instruction F} {operands : List (Traced F)} : command = .instruction i →
    i.operands ≠ [] → List.Forall₂ (fun a x => w.registers[a]? = some x) i.operands operands →
    operands.any Traced.isTracked = false →
    ∃ value, result = .ok (.added (Traced.constant value)) ∧
      next = w.addRegisters [Traced.constant value]
  /-- A node is accepted by a tape if its block fits and its parameters are on the tape. -/
  node {number : Nat} {params : List Index} {sensitivity : Rows F} :
    command = .pushNode number params sensitivity →
    ((∃ answer, result = .ok answer) ↔ Accepts w.tapes[number]? params sensitivity)
  /-- So it is by the tape of the newest live activation, if one is live. -/
  nodeActive {params : List Index} {sensitivity : Rows F} :
    command = .pushNodeActive params sensitivity →
    ((∃ answer, result = .ok answer) ↔
      Accepts (guards.head?.bind (w.tapes[·]?)) params sensitivity)
  /-- What fails changes nothing, and leaves the active tape alone on the way. -/
  failed : Fails result → next = w ∧ w.tapeLeft command = w.activeTape
  /-- No tape changes but the one that is named or, where something is recorded, the one of the
  newest live activation. -/
  frame {number : Nat} : number < w.tapes.size → command.target guards.head? ≠ some number →
    next.tapes[number]? = w.tapes[number]?

private theorem Nested.isolated (nested : Nested guards w) (command : Command F) :
    Isolated guards w command (w.after command).1 (w.after command).2 where
  tracked := by
    rintro i operands number live rfl found tracked rfl
    have here := Array.getElem?_eq_getElem (nested.known number List.mem_cons_self)
    obtain ⟨value, terms, eval, same, done⟩ := after_tracked nested.active here found tracked
    rw [done]
    exact ⟨_, _, value, terms, here, eval, same, rfl, .push _ terms, rfl, rfl⟩
  inactive := by
    rintro i operands rfl found tracked rfl
    rw [after_inactive nested.activeTape_nil found tracked]
    exact ⟨rfl, rfl⟩
  untracked := by
    rintro i operands rfl operation found untracked
    obtain ⟨value, done⟩ := after_untracked operation found untracked
    rw [done]
    exact ⟨value, rfl, rfl⟩
  node := by
    rintro number params sensitivity rfl
    exact after_pushNode w number params sensitivity
  nodeActive := by
    rintro params sensitivity rfl
    rw [← nested.activeTape_eq]
    exact after_pushNodeActive w params sensitivity
  failed fails := ⟨after_of_fails fails, tapeLeft_of_fails fails⟩
  frame inside other := after_frame w command inside (nested.active ▸ other)

theorem Nested.performAll (nested : Nested guards w) (commands : List (Command F)) :
    Nested (liveGuards guards commands (w.performAll commands).1) (w.performAll commands).2 := by
  induction commands generalizing w guards with
  | nil => exact nested
  | cons command commands ih =>
    have rest := ih (after_nested nested command)
    rw [performAll_cons]
    cases result : (w.after command).1 <;> rwa [result] at rest

/-- **Nested activations and isolated tapes.** After any commands on a blank workspace the active
tape is that of the newest live activation, and there is none if none is live. Whatever is asked
next keeps to that tape. -/
theorem performAll_isolated (commands : List (Command F)) (command : Command F) :
    let (answers, w) := ({} : Workspace F).performAll commands
    let guards := liveGuards [] commands answers
    ((∀ number ∈ guards, ∃ t, w.tapes[number]? = some t) ∧ w.active = guards.head? ∧
      w.activeTape = guards.head?.bind (w.tapes[·]?)) ∧
      Isolated guards w command (w.after command).1 (w.after command).2 := by
  have nested := Nested.blank.performAll commands
  exact ⟨⟨fun number member => ⟨_, Array.getElem?_eq_getElem (nested.known number member)⟩,
    nested.active, nested.activeTape_eq⟩, nested.isolated command⟩

end Workspace

end ImplicitDiff
