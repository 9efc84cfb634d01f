import ImplicitDiff.Comparison
import ImplicitDiff.Solver.Implicit
import ImplicitDiff.Tape.Sweep

/-! # Workspaces

A workspace holds several tapes, of which at most one is active, and registers with traced numbers.
Activations nest: ending one makes the tape active again that was active before it, whichever that
was. A command gives an answer and the next workspace, or a fault and none, so that whatever fails
leaves the workspace as it was. What solves did goes to the journal in either case.
-/

namespace ImplicitDiff

variable {F : Type}

/-- Tapes, activations and registers. -/
structure Workspace (F : Type) where
  /-- The tapes, by number. -/
  tapes : Array (Tape F) := #[]
  /-- The number of the active tape, if one is. -/
  active : Option Nat := none
  /-- What each activation that is not ended yet replaced, the newest first. -/
  replaced : List (Option Nat) := []
  /-- The registers, by number. -/
  registers : Array (Traced F) := #[]
deriving Repr

/-- What can be asked of a workspace. -/
inductive Command (F : Type) where
  /-- A new tape. -/
  | newTape
  /-- A new independent variable on a tape. -/
  | variable (tape : Nat) (value : F)
  /-- A register with any place on any tape. -/
  | register (value : Traced F)
  /-- Makes a tape active. -/
  | activate (tape : Nat)
  /-- Ends the newest activation, if there is one. -/
  | deactivate
  /-- Whether a tape is active. -/
  | isActive
  /-- Records a variable on a tape. -/
  | push (tape : Nat) (terms : List (Index × F))
  /-- Records a node on a tape. -/
  | pushNode (tape : Nat) (params : List Index) (sensitivity : Rows F)
  /-- Records a node on the active tape. -/
  | pushNodeActive (params : List Index) (sensitivity : Rows F)
  /-- A node that is on no tape. -/
  | node (params : List Index) (sensitivity : Rows F)
  /-- The nodes of a tape. -/
  | nodes (tape : Nat)
  /-- How many variables and nodes a tape has. -/
  | counts (tape : Nat)
  /-- The adjoints for one variable of a tape. -/
  | sweepFrom (tape : Nat) (place : Index)
  /-- The adjoints for a weighted sum of variables of a tape. -/
  | sweep (tape : Nat) (seeds : List (Index × F))
  /-- The number in a register. -/
  | read (a : Register)
  /-- Compares two registers. -/
  | compare (a b : Register)
  /-- An instruction on the registers; it has no other inputs. -/
  | instruction (i : Instruction F)
  /-- Solves equations at parameters from registers. -/
  | solve (equations : Solver.Equations F) (guess : List F) (parameters : List Register)
      (data : Solver.Data F) (settings : Solver.Settings F)

/-- What a workspace answers. -/
inductive Answer (F : Type) where
  /-- The number of a new tape. -/
  | tape (number : Nat)
  /-- The number in a register that was added. -/
  | added (value : Traced F)
  /-- The number of activations that are not ended. -/
  | activations (count : Nat)
  /-- Whether a tape is active. -/
  | active (holds : Bool)
  /-- A place on a tape. -/
  | place (index : Index)
  /-- A node. -/
  | node (n : Node F)
  /-- The nodes of a tape. -/
  | nodes (ns : List (Node F))
  /-- The counts of a tape. -/
  | counts (size nodes : Nat)
  /-- Adjoints, one for each variable of a tape. -/
  | adjoints (values : List F)
  /-- The number in a register. -/
  | number (value : Traced F)
  /-- The comparisons of two registers. -/
  | comparisons (c : Comparisons)
  /-- The unknowns of a root, in registers that were added. -/
  | root (unknowns : List (Traced F))
  /-- A solve failed. -/
  | failed (cause : Solver.Failure F)
deriving Repr

namespace Workspace

/-- The tape with a number. -/
def tape (w : Workspace F) (number : Nat) : Except Fault (Tape F) := fetch w.tapes[number]?

/-- The workspace with a tape in place of the one with that number. -/
def setTape (w : Workspace F) (number : Nat) (t : Tape F) : Workspace F :=
  { w with tapes := w.tapes.setIfInBounds number t }

/-- The active tape, if one is. -/
def activeTape (w : Workspace F) : Option (Tape F) := w.active.bind fun number => w.tapes[number]?

/-- The workspace with a tape in place of the active one. -/
def setActiveTape (w : Workspace F) (t : Option (Tape F)) : Workspace F :=
  match w.active, t with
  | some number, some t => w.setTape number t
  | _, _ => w

/-- The workspace with another active tape. -/
def activate (w : Workspace F) (number : Nat) : Workspace F :=
  { w with active := some number, replaced := w.active :: w.replaced }

/-- The workspace without its newest activation. -/
def deactivate (w : Workspace F) : Workspace F :=
  match w.replaced with
  | [] => w
  | previous :: rest => { w with active := previous, replaced := rest }

/-- The workspace with more registers. -/
def addRegisters (w : Workspace F) (values : List (Traced F)) : Workspace F :=
  { w with registers := w.registers ++ values }

/-- Runs a computation that may record on the active tape. -/
def record {α : Type} (w : Workspace F) (body : RecordM F α) : SearchM F (α × Workspace F) :=
  ExceptT.mk fun journal =>
    let (result, recorder) := body.run.run { tape := w.activeTape, journal }
    (result.map fun a => (a, w.setActiveTape recorder.tape), recorder.journal)

/-- The answer for a register that is added. -/
def added (value : Traced F) (w : Workspace F) : Answer F × Workspace F :=
  (.added value, w.addRegisters [value])

variable [Arith F]

/-- Carries out a command. -/
def perform (w : Workspace F) : Command F → SearchM F (Answer F × Workspace F)
  | .newTape => return (.tape w.tapes.size, { w with tapes := w.tapes.push {} })
  | .variable number value => do
    let t ← w.tape number
    return added { value, index := t.size } (w.setTape number t.allocate)
  | .register value => return added value w
  | .activate number => do
    let _ ← w.tape number
    return (.activations (w.replaced.length + 1), w.activate number)
  | .deactivate => return (.activations w.deactivate.replaced.length, w.deactivate)
  | .isActive => return (.active w.active.isSome, w)
  | .push number terms => do
    let t ← w.tape number
    return (.place t.size, w.setTape number (t.push terms))
  | .pushNode number params sensitivity => do
    let node ← Node.build params sensitivity
    let t ← w.tape number
    return (.place t.size, w.setTape number (← t.pushNode node))
  | .pushNodeActive params sensitivity => do
    let node ← Node.build params sensitivity
    let (place, next) ← w.record (RecordM.pushNode node)
    return (.place place, next)
  | .node params sensitivity => return (.node (← Node.build params sensitivity), w)
  | .nodes number => return (.nodes (← w.tape number).nodes, w)
  | .counts number => do
    let t ← w.tape number
    return (.counts t.size.toNat t.nodes.length, w)
  | .sweepFrom number place => do
    let t ← w.tape number
    return (.adjoints (← t.sweepFrom place).toList, w)
  | .sweep number seeds => do
    let t ← w.tape number
    return (.adjoints (← t.sweep seeds).toList, w)
  | .read a => return (.number (← fetch w.registers[a]?), w)
  | .compare a b => do
    let left ← fetch w.registers[a]?
    let right ← fetch w.registers[b]?
    return (.comparisons (.of left.value right.value), w)
  | .instruction i => do
    let (value, next) ← w.record (i.eval {} w.registers)
    return added value next
  | .solve equations guess parameters data settings => do
    let parameters ← parameters.mapM fun a => fetch w.registers[a]?
    let (result, next) ← w.record (Solver.solveTraced equations guess parameters data settings).run
    match result with
    | .ok unknowns => return (.root unknowns, next.addRegisters unknowns)
    | .error cause => return (.failed cause, w)

/-- Carries out commands one after the other. Each gives an answer or a fault, and the journal of
what it did. -/
def performAll (w : Workspace F) :
    List (Command F) → List (Except Fault (Answer F) × Journal F) × Workspace F
  | [] => ([], w)
  | command :: commands =>
    let (result, journal) := (w.perform command).run.run #[]
    let next := match result with
      | .ok (_, next) => next
      | .error _ => w
    let (answers, last) := next.performAll commands
    ((result.map (·.1), journal) :: answers, last)

end Workspace

end ImplicitDiff
