import Mathlib.Data.List.Forall2
import Mathlib.Data.Option.Basic
import Mathlib.Tactic
import ImplicitDiff.Program.Basic

/-! # One program on two kinds of numbers

A program compares its numbers by their values and hands them to the operations of the carrier; it
sees nothing else of them. A relation that the operations of two carriers respect therefore holds of
all registers of two runs, which take the same branches and end in the same fault. Recording makes
stages: what relates two numbers at one stage relates them at all later ones, and every instruction
costs at most one step of it.
-/

namespace ImplicitDiff

/-- A way to compare computations in two monads. `Runs cost related s m n` says that, started at
stage `s`, both end in the same fault, or both succeed at a later stage, at most `cost` steps away,
with results that are related there. -/
structure Coupling (M N : Type → Type) [Monad M] [Monad N] [MonadExceptOf Fault M]
    [MonadExceptOf Fault N] where
  /-- What has happened so far. -/
  Stage : Type
  /-- One stage comes after another. -/
  Later : Stage → Stage → Prop
  /-- Two computations agree. -/
  Runs {α β : Type} (cost : Nat) (related : Stage → α → β → Prop) (s : Stage) (m : M α) (n : N β) :
    Prop
  later_refl (s : Stage) : Later s s
  later_trans {s t u : Stage} : Later s t → Later t u → Later s u
  pure {α β : Type} {related : Stage → α → β → Prop} {s : Stage} {a : α} {b : β} :
    related s a b → Runs 0 related s (Pure.pure a) (Pure.pure b)
  fault {α β : Type} (related : Stage → α → β → Prop) (s : Stage) (f : Fault) :
    Runs 0 related s (throw f) (throw f)
  bind {α β γ δ : Type} {first : Stage → α → β → Prop} {second : Stage → γ → δ → Prop}
    {cost more : Nat} {s : Stage} {m : M α} {n : N β} {f : α → M γ} {g : β → N δ} :
    Runs cost first s m n →
    (∀ t a b, Later s t → first t a b → Runs more second t (f a) (g b)) →
    Runs (cost + more) second s (m >>= f) (n >>= g)
  weaken {α β : Type} {related : Stage → α → β → Prop} {cost more : Nat} {s : Stage} {m : M α}
    {n : N β} : Runs cost related s m n → cost ≤ more → Runs more related s m n

/-- Related lists hold related numbers at the same places. -/
theorem rel_getElem? {α β : Type} {related : α → β → Prop} {items : List α} {others : List β}
    (same : List.Forall₂ related items others) (i : Nat) :
    Option.Rel related items[i]? others[i]? := by
  induction same generalizing i with
  | nil => exact .none
  | cons head _ ih =>
    cases i with
    | zero => exact .some head
    | succ i => exact ih i

/-- Every entry of the second list has a counterpart. -/
theorem exists_related {α β : Type} {related : α → β → Prop} {items : List α} {others : List β}
    (same : List.Forall₂ related items others) : ∀ b ∈ others, ∃ a ∈ items, related a b := by
  intro b member
  obtain ⟨i, bound, rfl⟩ := List.getElem_of_mem member
  have here := rel_getElem? same i
  rw [List.getElem?_eq_getElem bound] at here
  cases found : items[i]? with
  | none =>
    rw [found] at here
    cases here
  | some a =>
    rw [found] at here
    cases here with
    | some both => exact ⟨a, List.mem_of_getElem? found, both⟩

variable {F T U : Type}

/-- Inputs with related numbers and the same data. -/
structure Inputs.Related (related : T → U → Prop) (left : Inputs F T) (right : Inputs F U) :
    Prop where
  unknowns : List.Forall₂ related left.unknowns right.unknowns
  parameters : List.Forall₂ related left.parameters right.parameters
  reals : left.reals = right.reals
  integers : left.integers = right.integers

/-- Whether an instruction mixes no other numbers with plain ones. -/
def Instruction.isUnmixed : Instruction F → Bool
  | .operateRight .. | .operateLeft .. => false
  | _ => true

section RunFrom

variable {M : Type → Type} [Arith F] [Monad M] [MonadExceptOf Fault M] [Carrier F T M]

/-- The registers of a run that goes on from given ones. -/
def Program.runFrom (inputs : Inputs F T) (registers : Array T) (program : Program F) :
    M (Array T) :=
  program.foldlM (fun registers i => return registers.push (← i.eval inputs registers)) registers

theorem Program.runFrom_cons [LawfulMonad M] (inputs : Inputs F T) (registers : Array T)
    (i : Instruction F) (rest : Program F) :
    Program.runFrom inputs registers (i :: rest) =
      i.eval inputs registers >>= fun c => Program.runFrom inputs (registers.push c) rest := by
  rw [runFrom, List.foldlM_cons, bind_assoc]
  simp only [pure_bind]
  rfl

end RunFrom

/-- Registers of two runs that are related place by place. -/
def Aligned (related : T → U → Prop) (registers : Array T) (others : Array U) : Prop :=
  List.Forall₂ related registers.toList others.toList

namespace Aligned

variable {related wider : T → U → Prop} {registers : Array T} {others : Array U}

theorem rel (same : Aligned related registers others) (i : Nat) :
    Option.Rel related registers[i]? others[i]? := by
  rw [← Array.getElem?_toList, ← Array.getElem?_toList]
  exact rel_getElem? same i

theorem push (same : Aligned related registers others) {a : T} {b : U} (last : related a b) :
    Aligned related (registers.push a) (others.push b) := by
  rw [Aligned, Array.toList_push, Array.toList_push]
  exact List.rel_append same (.cons last .nil)

theorem imp (same : Aligned related registers others)
    (wide : ∀ a b, related a b → wider a b) : Aligned wider registers others :=
  List.Forall₂.imp wide same

end Aligned

namespace Coupling

variable {M N : Type → Type} [Monad M] [Monad N] [MonadExceptOf Fault M] [MonadExceptOf Fault N]
  [Carrier F T M] [Carrier F U N]

/-- A relation between the numbers of two carriers that the operations within one kind of number
keep. Each operation costs at most one step. -/
structure RespectsUnmixed (C : Coupling M N) (related : C.Stage → T → U → Prop) : Prop where
  later {s t : C.Stage} {a : T} {b : U} : C.Later s t → related s a b → related t a b
  value {s : C.Stage} {a : T} {b : U} : related s a b → (Carrier.value a : F) = Carrier.value b
  lift (s : C.Stage) (c : F) : related s (Carrier.lift c) (Carrier.lift c)
  neg {s : C.Stage} {a : T} {b : U} :
    related s a b → C.Runs 1 related s (Carrier.neg a) (Carrier.neg b)
  elementary {s : C.Stage} {a : T} {b : U} (f : Elementary F) :
    related s a b → C.Runs 1 related s (Carrier.elementary f a) (Carrier.elementary f b)
  operate {s : C.Stage} {a c : T} {b d : U} (o : Operation) :
    related s a b → related s c d →
    C.Runs 1 related s (Carrier.operate o a c) (Carrier.operate o b d)

/-- A relation between the numbers of two carriers that all operations keep, those with plain
numbers included. -/
structure Respects (C : Coupling M N) (related : C.Stage → T → U → Prop) : Prop extends
    C.RespectsUnmixed related where
  operateRight {s : C.Stage} {a : T} {b : U} (o : Operation) (c : F) :
    related s a b → C.Runs 1 related s (Carrier.operateRight o a c) (Carrier.operateRight o b c)
  operateLeft {s : C.Stage} {a : T} {b : U} (o : Operation) (c : F) :
    related s a b → C.Runs 1 related s (Carrier.operateLeft o c a) (Carrier.operateLeft o c b)

variable {C : Coupling M N} {related : C.Stage → T → U → Prop} {s t : C.Stage}

omit [Carrier F T M] [Carrier F U N] in
theorem runs_fetch {α β : Type} {between : C.Stage → α → β → Prop} {found : Option α}
    {other : Option β} (same : Option.Rel (between s) found other) :
    C.Runs 0 between s (fetch found) (fetch other) := by
  cases same with
  | some here => exact C.pure here
  | none => exact C.fault between s .indexOutOfBounds

omit [Carrier F T M] [Carrier F U N] in
/-- Reading takes no step, so what is done with the entry alone counts. -/
theorem runs_fetch_bind {α β γ δ : Type} {between : C.Stage → α → β → Prop}
    {after : C.Stage → γ → δ → Prop} {cost : Nat} {found : Option α} {other : Option β}
    {f : α → M γ} {g : β → N δ} (same : Option.Rel (between s) found other)
    (next : ∀ t a b, C.Later s t → between t a b → C.Runs cost after t (f a) (g b)) :
    C.Runs cost after s (fetch found >>= f) (fetch other >>= g) :=
  C.weaken (C.bind (runs_fetch same) next) (Nat.zero_add cost).le

omit [Carrier F T M] [Carrier F U N] in
theorem runs_bind_of_free {α β γ δ : Type} {between : C.Stage → α → β → Prop}
    {after : C.Stage → γ → δ → Prop} {cost : Nat} {m : M α} {n : N β} {f : α → M γ} {g : β → N δ}
    (first : C.Runs cost between s m n)
    (next : ∀ t a b, C.Later s t → between t a b → C.Runs 0 after t (f a) (g b)) :
    C.Runs cost after s (m >>= f) (n >>= g) :=
  C.weaken (C.bind first next) (Nat.add_zero cost).le

omit [Carrier F T M] [Carrier F U N] in
/-- What each round of two loops keeps, both loops keep. -/
theorem runs_foldlM {ι α β : Type} {between : C.Stage → α → β → Prop} {cost : Nat}
    {step : α → ι → M α} {other : β → ι → N β} (items : List ι)
    (each : ∀ i ∈ items, ∀ t a b, C.Later s t → between t a b →
      C.Runs cost between t (step a i) (other b i))
    {a : α} {b : β} (start : between s a b) :
    C.Runs (items.length * cost) between s (items.foldlM step a) (items.foldlM other b) := by
  induction items generalizing s a b with
  | nil => exact C.weaken (C.pure start) (Nat.zero_le _)
  | cons i rest ih =>
    have first := each i List.mem_cons_self s a b (C.later_refl s) start
    have both := C.bind first fun t a b after kept => ih (fun i member u a b later =>
      each i (List.mem_cons_of_mem _ member) u a b (C.later_trans after later)) kept
    rw [List.foldlM_cons, List.foldlM_cons]
    refine C.weaken both ?_
    rw [List.length_cons, Nat.succ_mul, Nat.add_comm]

omit [Carrier F T M] [Carrier F U N] in
/-- A datum is the same in both runs. -/
theorem runs_datum_bind {α γ δ : Type} {after : C.Stage → γ → δ → Prop} {cost : Nat}
    (found : Option α) {f : α → M γ} {g : α → N δ}
    (next : ∀ t a, C.Later s t → C.Runs cost after t (f a) (g a)) :
    C.Runs cost after s (fetch found >>= f) (fetch found >>= g) := by
  have same : C.Runs 0 (fun _ => Eq) s (fetch found : M α) (fetch found) := by
    cases found with
    | none => exact C.fault _ s .indexOutOfBounds
    | some a => exact C.pure rfl
  refine C.weaken (C.bind same ?_) (Nat.zero_add cost).le
  rintro t a _ after rfl
  exact next t a after

namespace RespectsUnmixed

variable {left : Inputs F T} {right : Inputs F U} {registers : Array T} {others : Array U}

theorem aligned_later (respects : C.RespectsUnmixed related) (after : C.Later s t)
    (same : Aligned (related s) registers others) : Aligned (related t) registers others :=
  same.imp fun _ _ => respects.later after

private theorem inputs_later (respects : C.RespectsUnmixed related) (after : C.Later s t)
    (inputs : left.Related (related s) right) : left.Related (related t) right :=
  { inputs with
    unknowns := inputs.unknowns.imp fun _ _ => respects.later after
    parameters := inputs.parameters.imp fun _ _ => respects.later after }

variable [Arith F]

/-- One instruction that mixes no kinds of numbers defines related registers from related ones. -/
theorem eval (respects : C.RespectsUnmixed related) (inputs : left.Related (related s) right)
    (same : Aligned (related s) registers others) {i : Instruction F}
    (unmixed : i.isUnmixed = true) :
    C.Runs 1 related s (i.eval left registers) (i.eval right others) := by
  cases i with
  | unknown k => exact C.weaken (runs_fetch (rel_getElem? inputs.unknowns k)) zero_le_one
  | parameter k => exact C.weaken (runs_fetch (rel_getElem? inputs.parameters k)) zero_le_one
  | real k =>
    simp only [Instruction.eval, inputs.reals]
    refine runs_datum_bind _ fun t c _ => ?_
    exact C.weaken (C.pure (respects.lift t c)) zero_le_one
  | integer k =>
    simp only [Instruction.eval, inputs.integers]
    refine runs_datum_bind _ fun t n _ => ?_
    exact C.weaken (C.pure (respects.lift t _)) zero_le_one
  | constant c => exact C.weaken (C.pure (respects.lift s c)) zero_le_one
  | detach a =>
    refine runs_fetch_bind (same.rel a) fun t x y _ here => ?_
    rw [respects.value here]
    exact C.weaken (C.pure (respects.lift t _)) zero_le_one
  | neg a => exact runs_fetch_bind (same.rel a) fun t x y _ here => respects.neg here
  | elementary f a =>
    exact runs_fetch_bind (same.rel a) fun t x y _ here => respects.elementary f here
  | operate o a b =>
    refine runs_fetch_bind (same.rel a) fun t x y after here => ?_
    have later := respects.aligned_later after same
    refine runs_fetch_bind (later.rel b) fun u v w next there => ?_
    exact respects.operate o (respects.later next here) there
  | operateRight => cases unmixed
  | operateLeft => cases unmixed
  | select test a b c d =>
    refine runs_fetch_bind (same.rel a) fun t x y after here => ?_
    have later := respects.aligned_later after same
    refine runs_fetch_bind (later.rel b) fun u v w next there => ?_
    have last := respects.aligned_later next later
    rw [respects.value (respects.later next here), respects.value there]
    exact C.weaken (runs_fetch (last.rel _)) zero_le_one

/-- All registers of two runs are related if each instruction defines related ones. -/
theorem run_of_eval (respects : C.RespectsUnmixed related)
    (inputs : left.Related (related s) right) {program : Program F}
    (each : ∀ i ∈ program, ∀ t registers others, left.Related (related t) right →
      Aligned (related t) registers others →
      C.Runs 1 related t (i.eval left registers) (i.eval right others)) :
    C.Runs program.length (fun t => Aligned (related t)) s (program.run left)
      (program.run right) := by
  have none : Aligned (related s) (#[] : Array T) (#[] : Array U) := .nil
  refine C.weaken (runs_foldlM program ?_ none) (Nat.mul_one _).le
  intro i member t registers others after same
  refine runs_bind_of_free (each i member t _ _ (respects.inputs_later after inputs) same) ?_
  exact fun u a b later last => C.pure ((respects.aligned_later later same).push last)

/-- All registers of two runs of a program that mixes no kinds of numbers are related. -/
theorem run (respects : C.RespectsUnmixed related) (inputs : left.Related (related s) right)
    {program : Program F} (unmixed : program.all Instruction.isUnmixed = true) :
    C.Runs program.length (fun t => Aligned (related t)) s (program.run left)
      (program.run right) :=
  respects.run_of_eval inputs fun i member _ _ _ now same =>
    respects.eval now same (List.all_eq_true.mp unmixed i member)

/-- Both runs select the same outputs. -/
theorem select (respects : C.RespectsUnmixed related)
    (same : Aligned (related s) registers others) (outputs : List Output) :
    C.Runs 0 (fun t => List.Forall₂ (related t)) s (Output.select registers outputs)
      (Output.select others outputs) := by
  rw [← Nat.mul_zero outputs.length]
  refine runs_foldlM outputs ?_ .nil
  intro output _ t chosen picked after sofar
  have now := respects.aligned_later after same
  have add {u : C.Stage} (later : C.Later t u) (r : Register) :
      C.Runs 0 (fun t => List.Forall₂ (related t)) u
        (do return chosen ++ [← fetch registers[r]?])
        (do return picked ++ [← fetch others[r]?]) := by
    refine runs_fetch_bind ((respects.aligned_later later now).rel r) fun v a b next last => ?_
    have kept := sofar.imp fun _ _ => respects.later (C.later_trans later next)
    exact C.pure (List.rel_append kept (.cons last .nil))
  cases output with
  | always r => exact add (C.later_refl t) r
  | whenLess a b r =>
    refine runs_fetch_bind (now.rel a) fun u x y later here => ?_
    refine runs_fetch_bind ((respects.aligned_later later now).rel b) fun v w z next there => ?_
    rw [respects.value (respects.later next here), respects.value there]
    split_ifs with less
    · exact add (C.later_trans later next) r
    · exact C.pure (sofar.imp fun _ _ => respects.later (C.later_trans later next))

end RespectsUnmixed

namespace Respects

variable {left : Inputs F T} {right : Inputs F U} {registers : Array T} {others : Array U}
  [Arith F]

/-- One instruction defines related registers from related ones. -/
theorem eval (respects : C.Respects related) (inputs : left.Related (related s) right)
    (same : Aligned (related s) registers others) (i : Instruction F) :
    C.Runs 1 related s (i.eval left registers) (i.eval right others) := by
  cases i with
  | operateRight o a c =>
    exact runs_fetch_bind (same.rel a) fun t x y _ here => respects.operateRight o c here
  | operateLeft o c a =>
    exact runs_fetch_bind (same.rel a) fun t x y _ here => respects.operateLeft o c here
  | _ => exact respects.toRespectsUnmixed.eval inputs same rfl

/-- All registers of two runs are related. -/
theorem run (respects : C.Respects related) (inputs : left.Related (related s) right)
    (program : Program F) :
    C.Runs program.length (fun t => Aligned (related t)) s (program.run left)
      (program.run right) :=
  respects.run_of_eval inputs fun i _ _ _ _ now same => respects.eval now same i

/-- The outputs of two runs of a function are related. -/
theorem function (respects : C.Respects related) (inputs : left.Related (related s) right)
    (f : Function F) :
    C.Runs f.program.length (fun t => List.Forall₂ (related t)) s (f.eval left)
      (f.eval right) := by
  refine runs_bind_of_free (respects.run inputs f.program) fun t registers others _ same => ?_
  exact respects.select same f.outputs

end Respects

end Coupling

end ImplicitDiff
