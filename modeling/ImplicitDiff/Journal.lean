import ImplicitDiff.Dual
import ImplicitDiff.Fault
import ImplicitDiff.RootSearch.Termination

/-! # The journal of a solve

A solve leaves a journal of what it did, in order: each residual and each Jacobian that was asked
for, each call of the equations with its arguments and what they wrote, each step of the root
search, each verdict on a root. Counters, diagnostic lines and messages can all be read off it. A
journal only grows, and it outlives a fault.
-/

namespace ImplicitDiff

/-- A part of a message. -/
inductive Piece (F : Type) where
  /-- Some text. -/
  | words (text : String)
  /-- A number. How it is shown is left to those who read the message. -/
  | number (x : Dual F)
deriving Repr

/-- A message that equations write. -/
abbrev Message (F : Type) := List (Piece F)

/-- One thing that a solve did. -/
inductive Event (F : Type) where
  /-- A residual was asked for at a point. -/
  | evaluated (point : List F)
  /-- A Jacobian was asked for at a point. -/
  | linearized (point : List F)
  /-- The equations were called with these unknowns and parameters. -/
  | called (unknowns parameters : List (Dual F))
  /-- The equations wrote a message. -/
  | wrote (message : Message F)
  /-- A step was tried; norm and radius are those after it, the failures those in a row. -/
  | stepped (norm ratio radius : F) (accepted : Bool) (failures : Nat)
  /-- The root search stopped. -/
  | stopped (iterations evaluations jacobians : Nat) (reason : Termination)
  /-- The root search used its whole budget of evaluations. -/
  | overspent (evaluations budget : Nat) (reason : Termination)
  /-- The residual at the final point is too large for a root. -/
  | rejected (norm : F) (reason : Termination)
  /-- The final point is a root. -/
  | accepted (norm : F) (evaluations jacobians : Nat)
  /-- The derivative of a root was computed, of so many unknowns by so many parameters. -/
  | differentiated (unknowns parameters : Nat)
deriving Repr

/-- What happened, in order. -/
abbrev Journal (F : Type) := Array (Event F)

/-- A computation that keeps a journal and may end in a fault. -/
abbrev SearchM (F : Type) := ExceptT Fault (StateM (Journal F))

/-- Appends to the journal. -/
def note {F : Type} (e : Event F) : SearchM F Unit := modify (·.push e)

/-- A computation without a journal, as one with a journal that it leaves alone. -/
def SearchM.ofExcept {F α : Type} (result : Except Fault α) : SearchM F α :=
  ExceptT.mk (pure result)

instance {F : Type} : MonadLift (Except Fault) (SearchM F) where
  monadLift := SearchM.ofExcept

end ImplicitDiff
