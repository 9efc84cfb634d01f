import Mathlib
import ImplicitDiff.Proofs.Program.Values
import ImplicitDiff.Proofs.Zeros

/-! # Tangents of what does not vary

A column of a Jacobian is read off a run in which one unknown varies. A register that does not
depend on it has the tangent zero, through every operation that gives finite values, but for the
chain rule. It multiplies by the slope of an elementary function, which may be infinite where the
function is finite, as that of the square root is at zero. Then the tangent is no number, and no
tangent that is made of it is one.
-/

namespace ImplicitDiff

open Arith AbsorbingZeros SpecialValues

variable {F : Type} [Arith F]

/-! ## Dependence -/

/-- The registers whose tangents an instruction takes, given the registers at the end of the run. It
takes none from a register that it compares or detaches. -/
def Instruction.sources (registers : Array (Dual F)) : Instruction F → List Register
  | .neg a | .elementary _ a | .operateRight _ a _ | .operateLeft _ _ a => [a]
  | .operate _ a b => [a, b]
  | .select test a b c d => ((Instruction.select test a b c d).branch registers).toList
  | _ => []

/-- Whether an instruction takes an elementary function where it has no finite slope. -/
def Instruction.HasNoSlope (registers : Array (Dual F)) : Instruction F → Prop
  | .elementary f a => ∃ x, registers[a]? = some x ∧ isFinite (f.slope x.primal) = false
  | _ => False

/-- A register whose tangent comes from an instruction of some kind, the one that defines it or one
that defines what its sources come from. -/
inductive Program.Descends (program : Program F) (registers : Array (Dual F))
    (origin : Instruction F → Prop) : Register → Prop
  | origin {r : Register} {i : Instruction F} :
      program[r]? = some i → origin i → Descends program registers origin r
  | source {a r : Register} {i : Instruction F} : program[r]? = some i → a ∈ i.sources registers →
      Descends program registers origin a → Descends program registers origin r

/-- A register whose tangent comes from the `j`-th unknown. -/
def Program.DependsOn (program : Program F) (registers : Array (Dual F)) (j : Nat) :
    Register → Prop :=
  program.Descends registers (· = .unknown j)

/-- A register whose tangent comes from an elementary function where it has no finite slope. -/
def Program.Spoiled (program : Program F) (registers : Array (Dual F)) : Register → Prop :=
  program.Descends registers (Instruction.HasNoSlope registers)

theorem Program.descends_iff {program : Program F} {registers : Array (Dual F)}
    {origin : Instruction F → Prop} {r : Register} {i : Instruction F}
    (here : program[r]? = some i) : program.Descends registers origin r ↔
      origin i ∨ ∃ a ∈ i.sources registers, program.Descends registers origin a := by
  constructor
  · intro descends
    cases descends with
    | origin defined is =>
      cases here.symm.trans defined
      exact .inl is
    | source defined member descends =>
      cases here.symm.trans defined
      exact .inr ⟨_, member, descends⟩
  · rintro (is | ⟨a, member, descends⟩)
    · exact .origin here is
    · exact .source here member descends

/-- A function of a register without sources comes from these two instructions only. -/
theorem Program.descends_elementary_iff {program : Program F} {registers : Array (Dual F)}
    {origin : Instruction F → Prop} {r a : Register} {f : Elementary F} {i : Instruction F}
    (here : program[r]? = some (.elementary f a)) (source : program[a]? = some i)
    (alone : i.sources registers = []) :
    program.Descends registers origin r ↔ origin (.elementary f a) ∨ origin i := by
  have only : (Instruction.elementary f a).sources registers = [a] := rfl
  simp [descends_iff here, descends_iff source, alone, only]

/-! ## Tangents through the operations -/

/-- A tangent that nothing varies is zero, or no number if something spoiled it. -/
structure Unvaried (spoiled : Prop) (tangent : F) : Prop where
  missing : spoiled → isNaN tangent = true
  zero : ¬spoiled → IsZero tangent

namespace Unvaried

variable [AbsorbingZeros F] {p q : Prop} {s t c d : F} {a b : Dual F}

omit [AbsorbingZeros F] in
theorem congr (unvaried : Unvaried p t) (same : p ↔ q) : Unvaried q t :=
  ⟨fun spoiled => unvaried.missing (same.mpr spoiled),
    fun fine => unvaried.zero fun spoiled => fine (same.mp spoiled)⟩

theorem neg (unvaried : Unvaried p t) : Unvaried p (-t) :=
  ⟨fun spoiled => isNaN_neg (unvaried.missing spoiled),
    fun fine => isZero_neg (unvaried.zero fine)⟩

theorem add (left : Unvaried p s) (right : Unvaried q t) : Unvaried (p ∨ q) (s + t) :=
  ⟨fun spoiled => isNaN_add (spoiled.imp left.missing right.missing), fun fine =>
    isZero_add (left.zero fun p => fine (.inl p)) (right.zero fun q => fine (.inr q))⟩

theorem sub (left : Unvaried p s) (right : Unvaried q t) : Unvaried (p ∨ q) (s - t) :=
  ⟨fun spoiled => isNaN_sub (spoiled.imp left.missing right.missing), fun fine =>
    isZero_sub (left.zero fun p => fine (.inl p)) (right.zero fun q => fine (.inr q))⟩

theorem mul (unvaried : Unvaried p t) (finite : isFinite c = true) : Unvaried p (t * c) :=
  ⟨fun spoiled => isNaN_mul (.inl (unvaried.missing spoiled)),
    fun fine => isZero_mul (unvaried.zero fine) finite⟩

theorem mul_right (unvaried : Unvaried p t) (finite : isFinite c = true) : Unvaried p (c * t) :=
  ⟨fun spoiled => isNaN_mul (.inr (unvaried.missing spoiled)),
    fun fine => isZero_mul_right finite (unvaried.zero fine)⟩

theorem div (unvaried : Unvaried p t) (finite : isFinite (c / d) = true) : Unvaried p (t / d) :=
  ⟨fun spoiled => isNaN_div (.inl (unvaried.missing spoiled)),
    fun fine => isZero_div (unvaried.zero fine) finite⟩

/-- A factor that is not finite spoils a tangent. -/
theorem chain (unvaried : Unvaried p t) : Unvaried (isFinite c = false ∨ p) (t * c) := by
  by_cases finite : isFinite c = true
  · exact (unvaried.mul finite).congr (by simp [finite])
  rw [Bool.not_eq_true] at finite
  refine ⟨fun _ => ?_, fun fine => absurd (.inl finite) fine⟩
  by_cases spoiled : p
  · exact isNaN_mul (.inl (unvaried.missing spoiled))
  · exact isNaN_zero_mul (unvaried.zero spoiled) finite

theorem operate (left : Unvaried p a.tangent) (right : Unvaried q b.tangent)
    (first : isFinite a.primal = true) (second : isFinite b.primal = true) (o : Operation)
    (finite : isFinite (Dual.operate o a b).primal = true) :
    Unvaried (p ∨ q) (Dual.operate o a b).tangent := by
  cases o with
  | add => exact left.add right
  | sub => exact left.sub right
  | mul => exact ((right.mul_right first).add (left.mul second)).congr or_comm
  | div =>
    have inverse := (isFinite_of_mul finite).2
    exact (((left.mul second).sub (right.mul_right first)).mul inverse).mul inverse

theorem operateRight (unvaried : Unvaried p a.tangent) (o : Operation)
    (finite : isFinite (Dual.operateRight o a c).primal = true) :
    Unvaried p (Dual.operateRight o a c).tangent := by
  cases o with
  | add | sub => exact unvaried
  | mul => exact unvaried.mul (isFinite_of_mul finite).2
  | div => exact unvaried.div finite

theorem operateLeft (unvaried : Unvaried p a.tangent) (o : Operation)
    (finite : isFinite (Dual.operateLeft o c a).primal = true) :
    Unvaried p (Dual.operateLeft o c a).tangent := by
  cases o with
  | add => exact unvaried
  | sub => exact unvaried.neg
  | mul => exact unvaried.mul_right (isFinite_of_mul finite).1
  | div =>
    obtain ⟨factor, inverse⟩ := isFinite_of_mul finite
    exact ((unvaried.mul_right (isFinite_neg factor)).mul inverse).mul inverse

end Unvaried

/-! ## Runs -/

section Run

variable {inputs : Inputs F (Dual F)} {program : Program F} {before last : Array (Dual F)}
  {i : Instruction F} {d : Dual F} {r : Register} {j : Nat}

/-- The tangent that an instruction makes of tangents that nothing varies. -/
theorem Instruction.unvaried [AbsorbingZeros F] {spoiled : Register → Prop}
    (defined : i.eval inputs before = (.ok d : Except Fault (Dual F)))
    (kept : ∀ (a : Register) c, before[a]? = some c → last[a]? = some c)
    (values : ∀ c ∈ last, isFinite c.primal = true) (finite : isFinite d.primal = true)
    (unknowns : ∀ k c, i = .unknown k → inputs.unknowns[k]? = some c → IsZero c.tangent)
    (parameters : ∀ c ∈ inputs.parameters, IsZero c.tangent)
    (sources : ∀ a ∈ i.sources last, ∀ c, before[a]? = some c → Unvaried (spoiled a) c.tangent) :
    Unvaried (i.HasNoSlope last ∨ ∃ a ∈ i.sources last, spoiled a) d.tangent := by
  have alone {t : F} (zero : IsZero t) : Unvaried (False ∨ ∃ a ∈ [], spoiled a) t :=
    ⟨fun spoiled => by simp at spoiled, fun _ => zero⟩
  have value {a : Register} {c : Dual F} (read : before[a]? = some c) : isFinite c.primal = true :=
    values c (Array.mem_of_getElem? (kept a c read))
  cases i with
  | unknown k => exact alone (unknowns k d rfl (fetch_eq_ok_iff.mp defined))
  | parameter k =>
    exact alone (parameters d (List.mem_of_getElem? (fetch_eq_ok_iff.mp defined)))
  | real k | integer k =>
    obtain ⟨c, -, same⟩ := except_bind_eq_ok_iff.mp defined
    cases same
    exact alone isZero_zero
  | constant c =>
    cases defined
    exact alone isZero_zero
  | detach a =>
    obtain ⟨c, -, same⟩ := except_bind_eq_ok_iff.mp defined
    cases same
    exact alone isZero_zero
  | neg a =>
    obtain ⟨c, read, same⟩ := except_bind_eq_ok_iff.mp defined
    rw [fetch_eq_ok_iff] at read
    cases same
    have source := sources a List.mem_cons_self c read
    exact source.neg.congr (by simp [HasNoSlope, Instruction.sources])
  | elementary f a =>
    obtain ⟨c, read, same⟩ := except_bind_eq_ok_iff.mp defined
    rw [fetch_eq_ok_iff] at read
    cases same
    have source := sources a List.mem_cons_self c read
    exact source.chain.congr (by simp [HasNoSlope, Instruction.sources, kept a c read])
  | operate o a b =>
    obtain ⟨c, left, rest⟩ := except_bind_eq_ok_iff.mp defined
    obtain ⟨e, right, same⟩ := except_bind_eq_ok_iff.mp rest
    rw [fetch_eq_ok_iff] at left right
    cases same
    have first := sources a List.mem_cons_self c left
    have second := sources b (List.mem_cons_of_mem _ List.mem_cons_self) e right
    exact (first.operate second (value left) (value right) o finite).congr
      (by simp [HasNoSlope, Instruction.sources])
  | operateRight o a n =>
    obtain ⟨c, read, same⟩ := except_bind_eq_ok_iff.mp defined
    rw [fetch_eq_ok_iff] at read
    cases same
    have source := sources a List.mem_cons_self c read
    exact (source.operateRight o finite).congr (by simp [HasNoSlope, Instruction.sources])
  | operateLeft o n a =>
    obtain ⟨c, read, same⟩ := except_bind_eq_ok_iff.mp defined
    rw [fetch_eq_ok_iff] at read
    cases same
    have source := sources a List.mem_cons_self c read
    exact (source.operateLeft o finite).congr (by simp [HasNoSlope, Instruction.sources])
  | select test a b k l =>
    obtain ⟨x, left, rest⟩ := except_bind_eq_ok_iff.mp defined
    obtain ⟨y, right, taken⟩ := except_bind_eq_ok_iff.mp rest
    rw [fetch_eq_ok_iff] at left right taken
    have chosen : (Instruction.select test a b k l).sources last =
        [if test.holds x.primal y.primal then k else l] := by
      simp only [Instruction.sources, Instruction.branch, kept a x left, kept b y right,
        Option.map_some]
      rfl
    have source := sources _ (chosen ▸ List.mem_cons_self) d taken
    exact source.congr (by simp [HasNoSlope, chosen]; rfl)

/-- In a run with finite values, the tangent of a register that does not depend on the varied
unknown is zero, unless it is spoiled, and then it is no number. -/
theorem Program.unvaried_of_run [AbsorbingZeros F]
    (ran : program.run inputs = (.ok last : Except Fault (Array (Dual F))))
    (finite : ∀ c ∈ last, isFinite c.primal = true)
    (unknowns : ∀ k c, k ≠ j → inputs.unknowns[k]? = some c → IsZero c.tangent)
    (parameters : ∀ c ∈ inputs.parameters, IsZero c.tangent) (found : last[r]? = some d)
    (unrelated : ¬program.DependsOn last j r) : Unvaried (program.Spoiled last r) d.tangent := by
  -- An instruction reads earlier registers only.
  induction r using Nat.strong_induction_on generalizing d with
  | _ r ih =>
    obtain ⟨written, -⟩ := Array.getElem?_eq_some_iff.mp found
    rw [size_of_runFrom ran, Array.size_empty, Nat.zero_add] at written
    have here := List.getElem?_eq_getElem written
    obtain ⟨before, c, size, defined, same, kept⟩ := exists_eval_of_runFrom ran here
    rw [Array.size_empty, Nat.zero_add] at size same
    cases found.symm.trans same
    refine (Instruction.unvaried defined kept finite (finite d (Array.mem_of_getElem? found)) ?_
      parameters ?_).congr (descends_iff here).symm
    · intro k c varied input
      refine unknowns k c (fun same => ?_) input
      exact unrelated (.origin here (same ▸ varied))
    · intro a member c read
      obtain ⟨earlier, -⟩ := Array.getElem?_eq_some_iff.mp read
      exact ih a (size ▸ earlier) (kept a c read) fun depends =>
        unrelated (.source here member depends)

end Run

/-! ## Jacobians -/

/-- The register that an output selects. -/
def Output.register? (registers : Array (Dual F)) : Output → Option Register
  | .always r => some r
  | .whenLess a b r => do
    let left ← registers[a]?
    let right ← registers[b]?
    if left.primal < right.primal then some r else none

/-- What is selected are the registers that the outputs select, in their order. -/
theorem Output.select_eq {registers : Array (Dual F)} {outputs : List Output}
    {selected : List (Dual F)}
    (chosen : Output.select registers outputs = (.ok selected : Except Fault (List (Dual F)))) :
    selected.map some =
      outputs.filterMap fun output => (output.register? registers).map (registers[·]?) := by
  refine foldlM_appends (fun sofar output next first => ?_) chosen
  cases output with
  | always r =>
    obtain ⟨d, read, same⟩ := except_bind_eq_ok_iff.mp first
    rw [fetch_eq_ok_iff] at read
    cases same
    simp [register?, read]
  | whenLess a b r =>
    obtain ⟨x, left, first⟩ := except_bind_eq_ok_iff.mp first
    obtain ⟨y, right, first⟩ := except_bind_eq_ok_iff.mp first
    rw [fetch_eq_ok_iff] at left right
    change (if x.primal < y.primal then _ else _) = _ at first
    split_ifs at first with less
    · obtain ⟨d, read, same⟩ := except_bind_eq_ok_iff.mp first
      rw [fetch_eq_ok_iff] at read
      cases same
      simp [register?, left, right, less, read]
    · cases first
      simp [register?, left, right, less]

/-- Only one unknown varies. -/
theorem isZero_of_seededAt [AbsorbingZeros F] (x : List F) {j k : Nat} {d : Dual F}
    (other : k ≠ j) (found : (seededAt x j)[k]? = some d) : IsZero d.tangent := by
  rw [seededAt, List.getElem?_mapIdx, Option.map_eq_some_iff] at found
  obtain ⟨c, -, rfl⟩ := found
  rw [if_neg other]
  exact isZero_zero

/-- A column of a Jacobian holds the tangents of its run. -/
theorem exists_column_of_jacobian {f : List (Dual F) → Except Fault (List (Dual F))}
    {x values : List F} {rows : List (List F)} {j : Nat}
    (found : jacobian f x = .ok (values, rows)) (inside : j < x.length) :
    ∃ column, f (seededAt x j) = .ok column ∧ ∀ (i : Nat) (row : List F) (d : Dual F),
      rows[i]? = some row → column[i]? = some d → row[j]? = some d.tangent := by
  obtain ⟨plain, -, rest⟩ := except_bind_eq_ok_iff.mp found
  obtain ⟨columns, each, same⟩ := except_bind_eq_ok_iff.mp rest
  cases same
  have both := rel_getElem? (mapM_eq_ok_iff.mp each) j
  rw [List.getElem?_range inside] at both
  cases listed : columns[j]? with
  | none =>
    rw [listed] at both
    cases both
  | some column =>
    rw [listed] at both
    cases both with
    | some ran =>
      refine ⟨column, ran, fun i row d here entry => ?_⟩
      rw [List.getElem?_map, Option.map_eq_some_iff] at here
      obtain ⟨k, place, rfl⟩ := here
      obtain ⟨-, rfl⟩ := List.getElem?_eq_some_iff.mp place
      simp [listed, entry]

/-- **A Jacobian has a zero for what is unrelated.** In the run for the `j`-th column, if all values
are finite, every register that does not depend on the `j`-th unknown has the tangent zero, and so
has every entry of the column for such a register. There is one exception: what comes from an
elementary function where it has no finite slope is no number. -/
theorem Function.jacobian_unrelated [AbsorbingZeros F] {f : Function F} {x y reals : List F}
    {integers : List Int} {values : List F} {rows : List (List F)} {j : Nat}
    (found : jacobian (fun unknowns => f.eval
      { unknowns, parameters := y.map Dual.constant, reals, integers }) x =
        (.ok (values, rows) : Except Fault (List F × List (List F)))) (inside : j < x.length) :
    ∃ last : Array (Dual F), f.program.run
        { unknowns := seededAt x j, parameters := y.map Dual.constant, reals, integers } =
          (.ok last : Except Fault (Array (Dual F))) ∧
      ((∀ d ∈ last, isFinite d.primal = true) →
        (∀ r d, last[r]? = some d → ¬f.program.DependsOn last j r →
          Unvaried (f.program.Spoiled last r) d.tangent) ∧
        ∀ (i : Nat) (row : List F) (r : Register), rows[i]? = some row →
          (f.outputs.filterMap (Output.register? last))[i]? = some r →
          ¬f.program.DependsOn last j r →
          ∃ entry, row[j]? = some entry ∧ Unvaried (f.program.Spoiled last r) entry) := by
  obtain ⟨column, ran, entries⟩ := exists_column_of_jacobian found inside
  obtain ⟨last, ran, chosen⟩ := except_bind_eq_ok_iff.mp ran
  refine ⟨last, ran, fun finite => ?_⟩
  have unvaried (r : Register) (d : Dual F) :=
    Program.unvaried_of_run (r := r) (d := d) (j := j) ran finite
      (fun _ _ other => isZero_of_seededAt x other)
      (List.forall_mem_map.mpr fun _ _ => isZero_zero)
  refine ⟨unvaried, fun i row r here taken unrelated => ?_⟩
  have same := congrArg (·[i]?) (Output.select_eq chosen)
  rw [← List.map_filterMap] at same
  simp only [List.getElem?_map, taken, Option.map_some] at same
  obtain ⟨d, picked, read⟩ := Option.map_eq_some_iff.mp same
  exact ⟨d.tangent, entries i row d here picked, unvaried r d read.symm unrelated⟩

/-- The roots of the first unknown and of the value of the second one. -/
def roots : Function Float where
  program := [.unknown 0, .unknown 1, .elementary .sqrt 0, .detach 1, .elementary .sqrt 3]
  outputs := [.always 2, .always 4]

/-- Neither root depends on the second unknown. At four and zero its column has a zero for the one
and no number for the other. -/
theorem Function.jacobian_unrelated_roots :
    ∃ values rows, jacobian (fun unknowns => roots.eval { unknowns }) ([4, 0] : List Float) =
        (.ok (values, rows) : Except Fault (List Float × List (List Float))) ∧
      1 < ([4, 0] : List Float).length ∧
      ∃ last : Array (Dual Float),
        roots.program.run { unknowns := seededAt ([4, 0] : List Float) 1 } =
          (.ok last : Except Fault (Array (Dual Float))) ∧
        (∀ d ∈ last, isFinite d.primal = true) ∧
        (∃ row entry, rows[0]? = some row ∧ row[1]? = some entry ∧ IsZero entry) ∧
        ∃ row entry, rows[1]? = some row ∧ row[1]? = some entry ∧ isNaN entry = true := by
  have inside : 1 < ([4, 0] : List Float).length := Nat.one_lt_two
  obtain ⟨⟨values, rows⟩, found⟩ : ∃ result,
      jacobian (fun unknowns => roots.eval { unknowns }) ([4, 0] : List Float) =
        (.ok result : Except Fault (List Float × List (List Float))) := ⟨_, rfl⟩
  obtain ⟨last, ran, shown⟩ := jacobian_unrelated (y := []) found inside
  change roots.program.run { unknowns := seededAt ([4, 0] : List Float) 1 } = .ok last at ran
  -- What the kernel finds out about the registers and the rows.
  have checked : (roots.program.run { unknowns := seededAt ([4, 0] : List Float) 1 } :
      Except Fault (Array (Dual Float))).map (fun last =>
        (last.toList.all fun d => isFinite d.primal,
          last[0]?.all fun x => isFinite (Elementary.sqrt.slope x.primal),
          last[3]?.any fun x => !isFinite (Elementary.sqrt.slope x.primal))) =
        .ok (true, true, true) := by
    decide +kernel
  have listed : (jacobian (fun unknowns => roots.eval { unknowns }) ([4, 0] : List Float) :
      Except Fault (List Float × List (List Float))).map (fun (_, rows) => rows.length) =
        .ok 2 := by
    decide +kernel
  rw [ran] at checked
  rw [found] at listed
  simp only [Except.map, Except.ok.injEq, Prod.mk.injEq] at checked listed
  obtain ⟨all, slope, noSlope⟩ := checked
  have finite : ∀ d ∈ last, isFinite d.primal = true := fun d member =>
    List.all_eq_true.mp all d (Array.mem_def.mp member)
  have origins {origin : Instruction Float → Prop} :
      (roots.program.Descends last origin 2 ↔ origin (.elementary .sqrt 0) ∨ origin (.unknown 0)) ∧
      (roots.program.Descends last origin 4 ↔ origin (.elementary .sqrt 3) ∨ origin (.detach 1)) :=
    ⟨Program.descends_elementary_iff rfl rfl rfl, Program.descends_elementary_iff rfl rfl rfl⟩
  have fine : ¬roots.program.Spoiled last 2 := by
    rw [Program.Spoiled, origins.1]
    rintro (⟨x, read, infinite⟩ | ⟨⟨⟩⟩)
    rw [read] at slope
    cases infinite.symm.trans slope
  have spoiled : roots.program.Spoiled last 4 := by
    rw [Program.Spoiled, origins.2]
    obtain ⟨x, read, infinite⟩ := (Option.any_eq_true ..).mp noSlope
    exact .inl ⟨x, read, by simpa using infinite⟩
  obtain ⟨-, entries⟩ := shown finite
  have row (i : Nat) (short : i < rows.length) : rows[i]? = some rows[i] :=
    List.getElem?_eq_getElem short
  obtain ⟨entry, here, unvaried⟩ := entries 0 _ 2 (row 0 (by omega)) rfl fun depends => by
    rcases origins.1.mp depends with ⟨⟨⟩⟩ | ⟨⟨⟩⟩
  obtain ⟨other, there, missing⟩ := entries 1 _ 4 (row 1 (by omega)) rfl fun depends => by
    rcases origins.2.mp depends with ⟨⟨⟩⟩ | ⟨⟨⟩⟩
  exact ⟨values, rows, found, inside, last, ran, finite,
    ⟨_, entry, row 0 (by omega), here, unvaried.zero fine⟩,
    _, other, row 1 (by omega), there, missing.missing spoiled⟩

/-- The root of a constant. -/
def rootOfZero : Function Float where
  program := [.unknown 0, .constant 0, .elementary .sqrt 1]
  outputs := [.always 2]

/-- All values are finite and the root of the constant zero does not depend on the unknown, but the
entry of the Jacobian is no number. -/
theorem jacobian_root_of_zero :
    (rootOfZero.program.run { unknowns := seededAt ([1] : List Float) 0 } :
      Except Fault (Array (Dual Float))).map (fun last => last.toList.map fun d =>
        isFinite d.primal) = .ok [true, true, true] ∧
    (∀ last, ¬rootOfZero.program.DependsOn last 0 2) ∧
    (jacobian (fun unknowns => rootOfZero.eval { unknowns }) ([1] : List Float) :
      Except Fault (List Float × List (List Float))).map (fun (_, rows) => rows.map
        (List.map fun entry => (isNaN entry, decide (IsZero entry)))) = .ok [[(true, false)]] := by
  refine ⟨by decide +kernel, fun last => ?_, by decide +kernel⟩
  rw [Program.DependsOn, Program.descends_elementary_iff (i := .constant 0) rfl rfl rfl]
  rintro (⟨⟨⟩⟩ | ⟨⟨⟩⟩)

end ImplicitDiff
