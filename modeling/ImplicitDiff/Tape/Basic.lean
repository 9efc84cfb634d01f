import ImplicitDiff.Fault

/-! # Tapes

A tape records a computation as a list of statements. A statement names the variable that it defines
and says how a change of its operands moves that variable: a linear statement by one multiplier for
each operand, an implicit node by a whole block of derivatives for several variables at once.

Operands and multipliers of all linear statements lie end to end in two arrays, and a statement
keeps only where its share stops. Places and stops are 32-bit words. `Tape.entries` reads the arrays
back as one entry for each statement; whatever sweeps over a tape goes through it.
-/

namespace ImplicitDiff

/-- A place on a tape, or `Index.constant` for a value that is on none. -/
abbrev Index := UInt32

/-- The mark of a value that no tape tracks: the largest word. -/
def Index.constant : Index := 0xFFFFFFFF

/-- Several variables with known derivatives with respect to some parameters. -/
structure Node (F : Type) where
  /-- The variables that the outputs depend on; constants among them are passed over. -/
  params : List Index
  /-- One row for each output, with one derivative for each parameter. -/
  sensitivity : List (List F)
  /-- The first output; the others follow it. A node that is on no tape has none. -/
  firstOutput : Index := Index.constant
deriving Repr

namespace Node

variable {F : Type}

/-- The number of variables that the node defines. -/
def outputs (n : Node F) : Nat := n.sensitivity.length

/-- A node that is on no tape yet. It has at least one output, and each row of its block has one
entry for each parameter; the first row that has not is reported. -/
def build (params : List Index) (sensitivity : List (List F)) : Except Fault (Node F) :=
  if sensitivity.isEmpty then .error .nodeWithoutOutputs
  else
    match sensitivity.zipIdx.find? fun (row, _) => row.length != params.length with
    | some (row, i) => .error (.raggedSensitivity i row.length params.length)
    | none => .ok { params, sensitivity }

end Node

/-- The record of one definition on a tape. -/
structure Statement (F : Type) where
  /-- The variable defined, the first one for a node. -/
  result : Index
  /-- Where the operands end that belong to this statement and to those before it. -/
  stop : UInt32
  /-- The node, for a statement that has no operands of its own. -/
  node : Option (Node F) := none
deriving Repr

/-- A recorded computation. -/
structure Tape (F : Type) where
  /-- The statements in the order in which they were recorded. -/
  statements : Array (Statement F) := #[]
  /-- The multipliers of all linear statements. -/
  multipliers : Array F := #[]
  /-- The operands of all linear statements, in step with the multipliers. -/
  operands : Array Index := #[]
  /-- The number of variables, which is the place of the next one. -/
  size : UInt32 := 0
deriving Repr

/-- What a statement says about the variables that it defines. -/
inductive Entry (F : Type) where
  /-- A change of each operand moves the result by its multiplier. -/
  | linear (result : Index) (terms : List (Index × F))
  /-- A change of each parameter moves the outputs by a column of the block. -/
  | node (n : Node F)
deriving Repr

namespace Tape

variable {F : Type}

/-- The operands and multipliers between two stops. -/
def terms (t : Tape F) (start stop : UInt32) : List (Index × F) :=
  (t.operands.extract start.toNat stop.toNat).toList.zip
    (t.multipliers.extract start.toNat stop.toNat).toList

/-- The entries of consecutive statements; the operands of the first begin at `start`. -/
def entriesFrom (t : Tape F) (start : UInt32) : List (Statement F) → List (Entry F)
  | [] => []
  | s :: rest =>
    (match s.node with
      | some n => .node n
      | none => .linear s.result (t.terms start s.stop)) :: t.entriesFrom s.stop rest

/-- The recorded computation, one entry for each statement. -/
def entries (t : Tape F) : List (Entry F) := t.entriesFrom 0 t.statements.toList

/-- The nodes in the order in which they were recorded. -/
def nodes (t : Tape F) : List (Node F) := t.statements.toList.filterMap (·.node)

/-- Allocates an independent variable, at the place `t.size`. It has no statement. -/
def allocate (t : Tape F) : Tape F := { t with size := t.size + 1 }

/-- Records a variable, at the place `t.size`, that depends on the operands of `terms` by their
multipliers. Constants among the operands leave no trace. -/
def push (t : Tape F) (terms : List (Index × F)) : Tape F :=
  let tracked := terms.filter fun (i, _) => i != Index.constant
  let multipliers := t.multipliers ++ tracked.map (·.2)
  { statements := t.statements.push { result := t.size, stop := multipliers.size.toUInt32 }
    multipliers
    operands := t.operands ++ tracked.map (·.1)
    size := t.size + 1 }

/-- Records a node, whose outputs are new variables from the place `t.size` on. Its parameters
have to be constants or variables of this tape. -/
def pushNode (t : Tape F) (n : Node F) : Except Fault (Tape F) :=
  match n.params.find? fun p => p != Index.constant && !decide (p < t.size) with
  | some p => .error (.foreignParameter p t.size)
  | none =>
    let placed := { n with firstOutput := t.size }
    .ok { t with
      statements := t.statements.push
        { result := t.size, stop := t.multipliers.size.toUInt32, node := some placed }
      size := t.size + n.outputs.toUInt32 }

end Tape

end ImplicitDiff
