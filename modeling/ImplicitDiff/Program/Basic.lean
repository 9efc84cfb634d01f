import ImplicitDiff.Program.Carrier

/-! # Straight-line programs

A program is a list of instructions. Instruction `k` defines register `k` from inputs, constants and
earlier registers, so a register is written once and may be read often. A function selects its
outputs among the registers; an output may hang on a comparison, so the number of outputs may vary.
-/

namespace ImplicitDiff

/-- The number of a register, which is the number of the instruction that defines it. -/
abbrev Register := Nat

/-- Comparisons of two registers by their plain values. -/
inductive Comparison where
  /-- Strictly less. -/
  | less
  /-- Equal. -/
  | equal
deriving DecidableEq, Repr

/-- Whether the comparison holds of two plain values. -/
def Comparison.holds {F : Type} [Arith F] : Comparison → F → F → Bool
  | .less, a, b => decide (a < b)
  | .equal, a, b => a == b

/-- One step of a program. -/
inductive Instruction (F : Type) where
  /-- The `i`-th unknown. -/
  | unknown (i : Nat)
  /-- The `i`-th parameter. -/
  | parameter (i : Nat)
  /-- The `i`-th real datum, as a constant. -/
  | real (i : Nat)
  /-- The `i`-th integer datum, as a constant. -/
  | integer (i : Nat)
  /-- A constant. -/
  | constant (c : F)
  /-- The plain value of a register, as a constant. -/
  | detach (a : Register)
  /-- The opposite number. -/
  | neg (a : Register)
  /-- An elementary function of a register. -/
  | elementary (f : Elementary F) (a : Register)
  /-- An operation on two registers. -/
  | operate (o : Operation) (a b : Register)
  /-- An operation on a register and a plain number. -/
  | operateRight (o : Operation) (a : Register) (c : F)
  /-- An operation on a plain number and a register. -/
  | operateLeft (o : Operation) (c : F) (a : Register)
  /-- The register `c` if the comparison holds of `a` and `b`, and the register `d` otherwise. -/
  | select (test : Comparison) (a b c d : Register)
deriving Repr

/-- The instructions of a program, in order. -/
abbrev Program (F : Type) := List (Instruction F)

/-- One output of a function. -/
inductive Output where
  /-- The register `r`. -/
  | always (r : Register)
  /-- The register `r`, if `a` is less than `b`. -/
  | whenLess (a b r : Register)
deriving DecidableEq, Repr

/-- A program with its outputs. -/
structure Function (F : Type) where
  /-- The instructions. -/
  program : Program F
  /-- The outputs, in order. -/
  outputs : List Output
deriving Repr

/-- What a program reads besides its own registers. -/
structure Inputs (F T : Type) where
  /-- The unknowns. -/
  unknowns : List T := []
  /-- The parameters. -/
  parameters : List T := []
  /-- The real data. -/
  reals : List F := []
  /-- The integer data. -/
  integers : List Int := []

section Run

variable {F T : Type} [Arith F] {M : Type → Type} [Monad M] [MonadExceptOf Fault M] [Carrier F T M]

/-- The register that an instruction defines, from those before it. -/
def Instruction.eval (inputs : Inputs F T) (registers : Array T) : Instruction F → M T
  | .unknown i => fetch inputs.unknowns[i]?
  | .parameter i => fetch inputs.parameters[i]?
  | .real i => return Carrier.lift (← fetch inputs.reals[i]?)
  | .integer i => return Carrier.lift (((← fetch inputs.integers[i]?) : Int) : F)
  | .constant c => pure (Carrier.lift c)
  | .detach a => return Carrier.lift (Carrier.value (← fetch registers[a]?))
  | .neg a => do Carrier.neg (← fetch registers[a]?)
  | .elementary f a => do Carrier.elementary f (← fetch registers[a]?)
  | .operate o a b => do
    let left ← fetch registers[a]?
    Carrier.operate o left (← fetch registers[b]?)
  | .operateRight o a c => do Carrier.operateRight o (← fetch registers[a]?) c
  | .operateLeft o c a => do Carrier.operateLeft o c (← fetch registers[a]?)
  | .select test a b c d => do
    let left ← fetch registers[a]?
    let right ← fetch registers[b]?
    fetch registers[if test.holds (Carrier.value left) (Carrier.value right) then c else d]?

/-- All registers of a program. -/
def Program.run (inputs : Inputs F T) (program : Program F) : M (Array T) :=
  program.foldlM
    (fun registers instruction => return registers.push (← instruction.eval inputs registers)) #[]

/-- The registers that the outputs select. -/
def Output.select (registers : Array T) (outputs : List Output) : M (List T) :=
  outputs.foldlM (fun selected output => do
    match output with
    | .always r => return selected ++ [← fetch registers[r]?]
    | .whenLess a b r =>
      let left ← fetch registers[a]?
      let right ← fetch registers[b]?
      if (Carrier.value left : F) < Carrier.value right then
        return selected ++ [← fetch registers[r]?]
      else return selected) []

/-- The values of several lists of outputs of one program. -/
def Program.evalRows (program : Program F) (rows : List (List Output)) (inputs : Inputs F T) :
    M (List (List T)) := do
  let registers ← program.run inputs
  rows.mapM fun outputs => Output.select registers outputs

/-- The values of a function. -/
def Function.eval (f : Function F) (inputs : Inputs F T) : M (List T) := do
  Output.select (← f.program.run inputs) f.outputs

end Run

end ImplicitDiff
