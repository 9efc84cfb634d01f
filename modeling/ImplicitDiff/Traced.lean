import ImplicitDiff.Journal
import ImplicitDiff.Tape.Basic

/-! # Traced numbers

A traced number is a value with its place on the active tape. An operation with a tracked operand
records one statement, whose multipliers are the partial derivatives at the operands' values; an
operation on constants alone records nothing and gives a constant. Without an active tape an
operation with a tracked operand is a fault, and no state changes.
-/

namespace ImplicitDiff

open Arith

/-- A value with its place on a tape. -/
structure Traced (F : Type) where
  /-- The value. -/
  value : F
  /-- The place, or the mark of a constant. -/
  index : Index := Index.constant
deriving DecidableEq, Repr

/-- What a computation on traced numbers works on: the tape that is active, if one is, and the
journal of the solves on the way. -/
structure Recorder (F : Type) where
  /-- The active tape. -/
  tape : Option (Tape F) := none
  /-- What the solves did. -/
  journal : Journal F := #[]

/-- A computation that records on the active tape, keeps a journal and may end in a fault. -/
abbrev RecordM (F : Type) := ExceptT Fault (StateM (Recorder F))

namespace RecordM

variable {F α : Type}

/-- A computation that only keeps a journal leaves the tape alone. -/
def ofSearch (search : SearchM F α) : RecordM F α := ExceptT.mk fun r =>
  let (result, journal) := search.run.run r.journal
  (result, { r with journal })

instance : MonadLift (SearchM F) (RecordM F) where
  monadLift := ofSearch

/-- Records a variable with the given terms on the active tape and gives its place. -/
def push (terms : List (Index × F)) : RecordM F Index := ExceptT.mk fun
  | ⟨some t, journal⟩ => (.ok t.size, ⟨some (t.push terms), journal⟩)
  | ⟨none, journal⟩ => (.error .noActiveTape, ⟨none, journal⟩)

/-- Records a node on the active tape and gives the place of its first output. -/
def pushNode (n : Node F) : RecordM F Index := ExceptT.mk fun
  | ⟨some t, journal⟩ =>
    match t.pushNode n with
    | .ok recorded => (.ok t.size, ⟨some recorded, journal⟩)
    | .error fault => (.error fault, ⟨some t, journal⟩)
  | ⟨none, journal⟩ => (.error .noActiveTape, ⟨none, journal⟩)

/-- Runs a computation with `t` as the active tape and gives the tape that it leaves. The tape that
was active before is active again afterwards, also after a fault. -/
def onTape (t : Tape F) (body : RecordM F α) : RecordM F (α × Tape F) := ExceptT.mk fun r =>
  let (result, inner) := body.run.run { r with tape := some t }
  (result.map fun a => (a, inner.tape.getD t), { inner with tape := r.tape })

end RecordM

namespace Traced

variable {F : Type}

/-- A value that no tape tracks. -/
def constant (value : F) : Traced F := { value }

/-- Whether the value has a place on a tape. -/
def isTracked (a : Traced F) : Bool := a.index != Index.constant

/-- The result of an operation from its value and its terms: a constant if no operand is tracked,
and otherwise a variable of the active tape. -/
def record (value : F) (terms : List (Index × F)) : RecordM F (Traced F) :=
  if terms.all fun (i, _) => i == Index.constant then pure (constant value)
  else return { value, index := ← RecordM.push terms }

variable [Arith F]

/-- The number with the opposite sign. -/
def neg (a : Traced F) : RecordM F (Traced F) := record (-a.value) [(a.index, -1)]

/-- The value of an elementary function, with its slope as multiplier. -/
def elementary (f : Elementary F) (a : Traced F) : RecordM F (Traced F) :=
  record (f.value a.value) [(a.index, f.slope a.value)]

/-- The operation on two traced numbers. -/
def operate : Operation → Traced F → Traced F → RecordM F (Traced F)
  | .add, a, b => record (a.value + b.value) [(a.index, 1), (b.index, 1)]
  | .sub, a, b => record (a.value - b.value) [(a.index, 1), (b.index, -1)]
  | .mul, a, b => record (a.value * b.value) [(a.index, b.value), (b.index, a.value)]
  | .div, a, b =>
    let inverse := 1 / b.value
    record (a.value * inverse)
      [(a.index, inverse), (b.index, -a.value * inverse * inverse)]

/-- The operation with a plain number on the right. -/
def operateRight : Operation → Traced F → F → RecordM F (Traced F)
  | .add, a, c => record (a.value + c) [(a.index, 1)]
  | .sub, a, c => record (a.value - c) [(a.index, 1)]
  | .mul, a, c => record (a.value * c) [(a.index, c)]
  | .div, a, c =>
    let inverse := 1 / c
    record (a.value * inverse) [(a.index, inverse)]

/-- The operation with a plain number on the left. -/
def operateLeft : Operation → F → Traced F → RecordM F (Traced F)
  | .add, c, a => record (c + a.value) [(a.index, 1)]
  | .sub, c, a => record (c - a.value) [(a.index, -1)]
  | .mul, c, a => record (c * a.value) [(a.index, c)]
  | .div, c, a =>
    let inverse := 1 / a.value
    record (c * inverse) [(a.index, -c * inverse * inverse)]

end Traced

end ImplicitDiff
