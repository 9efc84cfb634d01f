import Mathlib.Tactic
import ImplicitDiff.Proofs.Solver.Acceptance
import ImplicitDiff.Proofs.Solver.Attach

/-! # A traced solve is a plain solve and one node

A traced solve searches with the values of its parameters and does not record the search. If a
parameter is tracked, the root becomes one node, and nothing else changes on the tape. Whatever
fails on the way, be it a check, the search, a singular Jacobian or a parameter of another tape,
leaves the tape as it was.
-/

namespace ImplicitDiff.Solver

variable {F α β : Type}

section Tape

/-- Whatever comes of the computation, the tape stays as it is. -/
def KeepsTape (m : TracedSolveM F α) : Prop := ∀ r, (m.run.run.run r).2.tape = r.tape

/-- Unless the computation succeeds, the tape stays as it is. -/
def Atomic (m : TracedSolveM F α) : Prop :=
  ∀ r, (∀ a, (m.run.run.run r).1 ≠ .ok (.ok a)) → (m.run.run.run r).2.tape = r.tape

variable {m : TracedSolveM F α} {f : α → TracedSolveM F β}

theorem KeepsTape.atomic (keeps : KeepsTape m) : Atomic m := fun r _ => keeps r

theorem KeepsTape.pure (a : α) : KeepsTape (pure a : TracedSolveM F α) := fun _ => rfl

private theorem KeepsTape.throwFault_bind (fault : Fault) (f : α → TracedSolveM F β) :
    KeepsTape ((throwThe Fault fault : TracedSolveM F α) >>= f) := fun _ => rfl

theorem KeepsTape.get : KeepsTape (getThe (Recorder F) : TracedSolveM F (Recorder F)) :=
  fun _ => rfl

theorem KeepsTape.ofExcept (result : Except Fault α) :
    KeepsTape (liftM result : TracedSolveM F α) := by
  cases result <;> exact fun _ => rfl

theorem KeepsTape.record (body : SolveM F α) : KeepsTape (SolveM.record body) := fun _ => rfl

/-- What precedes an atomic computation and keeps the tape may fail as well. -/
theorem Atomic.after (first : KeepsTape m) (next : ∀ a, Atomic (f a)) : Atomic (m >>= f) := by
  intro r failed
  rcases ran : m.run.run.run r with ⟨result, s⟩
  have same : s.tape = r.tape := by
    rw [← first r, ran]
  rcases result with fault | cause | a
  · rw [solve_bind_of_fault ran]
    exact same
  · rw [solve_bind_of_error ran]
    exact same
  · rw [solve_bind_of_ok ran] at failed ⊢
    exact (next a s failed).trans same

theorem Atomic.map (atomic : Atomic m) (g : α → β) :
    Atomic (m >>= fun a => Pure.pure (g a)) := by
  intro r failed
  rcases ran : m.run.run.run r with ⟨result, s⟩
  have same (unlike : ∀ a, result ≠ .ok (.ok a)) : s.tape = r.tape := by
    have kept := atomic r
    rw [ran] at kept
    exact kept unlike
  rcases result with fault | cause | a
  · rw [solve_bind_of_fault ran]
    exact same fun _ => nofun
  · rw [solve_bind_of_error ran]
    exact same fun _ => nofun
  · rw [solve_bind_of_ok ran] at failed
    exact absurd rfl (failed (g a))

theorem Atomic.pushNode (n : Node F) :
    Atomic (liftM (RecordM.pushNode n) : TracedSolveM F Index) := by
  rintro ⟨_ | t, journal⟩ failed
  · rfl
  · have run := RecordM.run_pushNode n t journal
    cases result : t.pushNode n with
    | error fault =>
      rw [result] at run
      have ran : (liftM (RecordM.pushNode n) : TracedSolveM F Index).run.run.run ⟨some t, journal⟩ =
        (.error fault, ⟨some t, journal⟩) := run_bind_of_error run
      rw [ran]
    | ok next =>
      rw [result] at run
      have ran : (liftM (RecordM.pushNode n) : TracedSolveM F Index).run.run.run ⟨some t, journal⟩ =
        (.ok (.ok t.size), ⟨some next, journal⟩) := run_bind_of_ok run
      rw [ran] at failed
      exact absurd rfl (failed t.size)

variable [Arith F]

theorem attach_atomic (equations : Equations F) (root : List F) (parameters : List (Traced F))
    (data : Data F) : Atomic (attach equations root parameters data) := by
  unfold attach
  split_ifs with tracked
  · refine .after .get fun r => ?_
    dsimp only
    split_ifs with inactive
    · exact (KeepsTape.throwFault_bind _ _).atomic
    · refine .after (.record _) fun block => ?_
      refine .after (.ofExcept _) fun node => ?_
      exact (Atomic.pushNode node).map _
  · exact (KeepsTape.pure _).atomic

/-- A traced solve that does not succeed leaves the tape as it was, whatever the equations are. -/
theorem solveTraced_atomic (equations : Equations F) (guess : List F)
    (parameters : List (Traced F)) (data : Data F) (settings : Settings F) :
    Atomic (solveTraced equations guess parameters data settings) :=
  .after (.record _) fun root => attach_atomic equations root.point parameters data

end Tape

section Derivative

variable [Arith F] {equations : Equations F} {data : Data F} {n m : Nat}
  {f : List (Dual F) → List (Dual F) → List (Dual F)} {x y : List F}

/-- A Jacobian of a function that is total at vectors of one length. -/
theorem jacobian_eq_slopes {h : List (Dual F) → Except Fault (List (Dual F))}
    {g : List (Dual F) → List (Dual F)}
    (total : ∀ z : List (Dual F), z.length = x.length → h z = .ok (g z)) :
    ImplicitDiff.jacobian h x = .ok (plainly g x, slopes g x) := by
  have columns : (List.range x.length).mapM (fun j => h (seededAt x j)) =
      .ok ((List.range x.length).map fun j => g (seededAt x j)) :=
    mapM_eq_pure fun j _ => total (seededAt x j) List.length_mapIdx
  unfold ImplicitDiff.jacobian
  rw [total _ (List.length_map _), columns]
  rfl

theorem Equations.Computes.linearized_eq (computes : equations.Computes data x.length y.length f) :
    ∃ rows, equations.linearized data x y = .ok (residualAt f y x, rows) := by
  have values : plainly (fun z => f (z.take x.length) (z.drop x.length)) (x ++ y) =
      residualAt f y x := by
    simp [plainly, residualAt]
  refine ⟨_, values ▸ jacobian_eq_slopes fun z long => computes _ _ ?_ ?_⟩
  · rw [List.length_take, long, List.length_append]
    exact Nat.min_eq_left (Nat.le_add_right ..)
  · rw [List.length_drop, long, List.length_append, Nat.add_sub_cancel_left]

/-- The derivative of a root of total equations is missing only if the Jacobian is singular. -/
theorem rootDerivative_gives (computes : equations.Computes data n m f) (unknowns : x.length = n)
    (parameters : y.length = m) (fits : (residualAt f y x).length = n) :
    Gives (rootDerivative equations x y data) (.error .singularJacobian) ∨
      ∃ block, Gives (rootDerivative equations x y data) (.ok block) ∧ block.length = n ∧
        ∀ row ∈ block, row.length = m := by
  subst unknowns parameters
  obtain ⟨rows, linearized⟩ := computes.linearized_eq
  obtain ⟨result, gives, derived⟩ := exists_derived linearized
  cases result with
  | ok block => exact .inr ⟨block, gives, derived.shape (jacobian_shape linearized).1⟩
  | error cause =>
    cases derived with
    | mismatch differs => exact absurd fits differs
    | singular => exact .inl gives

end Derivative

section Attach

variable [Arith F] {equations : Equations F} {data : Data F} {root : List F}
  {parameters : List (Traced F)} {r : Recorder F} {t : Tape F} {journal after : Journal F}

theorem attach_of_inactive (tracked : parameters.any Traced.isTracked = true) :
    (attach equations root parameters data).run.run.run ⟨none, journal⟩ =
      (.error .trackedParameters, ⟨none, journal⟩) := by
  rw [attach, if_pos tracked]
  rfl

/-- With a tape the derivative comes first. -/
theorem attach_of_active (tracked : parameters.any Traced.isTracked = true) :
    (attach equations root parameters data).run.run.run ⟨some t, journal⟩ =
      (do
        let block ← SolveM.record
          (rootDerivative equations root (parameters.map Traced.value) data)
        let node ← (Node.build (parameters.map Traced.index) block : Except Fault (Node F))
        let first ← RecordM.pushNode node
        return root.mapIdx fun i x => { value := x, index := first + i.toUInt32 } :
          TracedSolveM F (List (Traced F))).run.run.run ⟨some t, journal⟩ := by
  rw [attach, if_pos tracked]
  rfl

theorem attach_of_singular (tracked : parameters.any Traced.isTracked = true)
    (singular : (rootDerivative equations root (parameters.map Traced.value) data).run.run.run
      journal = (.ok (.error .singularJacobian), after)) :
    (attach equations root parameters data).run.run.run ⟨some t, journal⟩ =
      (.ok (.error .singularJacobian), ⟨some t, after⟩) := by
  rw [attach_of_active tracked]
  refine solve_bind_of_error ?_
  rw [run_record, singular]

/-- With a derivative of the right shape the tape decides. -/
theorem attach_of_block {block : Rows F} (tracked : parameters.any Traced.isTracked = true)
    (derived : (rootDerivative equations root (parameters.map Traced.value) data).run.run.run
      journal = (.ok (.ok block), after))
    (nonempty : block ≠ []) (wide : ∀ row ∈ block, row.length = parameters.length) :
    (attach equations root parameters data).run.run.run ⟨some t, journal⟩ =
      match t.pushNode { params := parameters.map Traced.index, sensitivity := block } with
      | .ok next => (.ok (.ok (root.mapIdx fun i x => ⟨x, t.size + i.toUInt32⟩)), ⟨some next, after⟩)
      | .error fault => (.error fault, ⟨some t, after⟩) := by
  have recorded : (SolveM.record (rootDerivative equations root (parameters.map Traced.value)
      data)).run.run.run ⟨some t, journal⟩ = (.ok (.ok block), ⟨some t, after⟩) := by
    rw [run_record, derived]
  have built : Node.build (parameters.map Traced.index) block =
      .ok { params := parameters.map Traced.index, sensitivity := block } :=
    Node.build_eq_ok_iff.mpr
      ⟨nonempty, fun row member => (wide row member).trans (List.length_map _).symm, rfl⟩
  have pushed :=
    RecordM.run_pushNode { params := parameters.map Traced.index, sensitivity := block } t after
  rw [attach_of_active tracked, solve_bind_of_ok recorded,
    solve_bind_of_ok (ofExcept_eq_ok_iff.mpr ⟨built, rfl⟩)]
  cases result : t.pushNode { params := parameters.map Traced.index, sensitivity := block } with
  | error fault =>
    rw [result] at pushed
    exact solve_bind_of_fault (run_bind_of_error pushed)
  | ok next =>
    rw [result] at pushed
    exact solve_bind_of_ok (run_bind_of_ok pushed)

end Attach

/-- What a traced solve does that starts with the recorder `r`, next to the plain solve with the
values of its parameters and the derivative of a root by them. -/
structure PlainAndNode (n : Nat) (parameters : List (Traced F)) (r : Recorder F)
    (plain : Except Fault (Except (Failure F) (List F)) × Journal F)
    (derivative : List F → SolveM F (Rows F))
    (traced : Except Fault (Except (Failure F) (List (Traced F))) × Recorder F) : Prop where
  /-- The plain solve ends. -/
  total : ∃ result journal, plain = (.ok result, journal)
  /-- A failure of the plain solve is one of the traced solve. -/
  failed {cause : Failure F} {journal : Journal F} : plain = (.ok (.error cause), journal) →
    traced = (.ok (.error cause), { r with journal })
  /-- If no parameter is tracked, the unknowns are constants. -/
  untracked {root : List F} {journal : Journal F} : plain = (.ok (.ok root), journal) →
    parameters.any Traced.isTracked = false →
    traced = (.ok (.ok (root.map Traced.constant)), { r with journal })
  /-- If a parameter is tracked, a tape has to be active. -/
  inactive {root : List F} {journal : Journal F} : plain = (.ok (.ok root), journal) →
    parameters.any Traced.isTracked = true → r.tape = none →
    traced = (.error .trackedParameters, { r with journal })
  /-- If it is the tape of the parameters, the unknowns are the outputs of one more node, unless the
  root has no derivative. -/
  recorded {root : List F} {journal : Journal F} {t : Tape F} : plain = (.ok (.ok root), journal) →
    parameters.any Traced.isTracked = true → r.tape = some t →
    (∀ p ∈ parameters, t.Knows p.index) →
    (∃ after, (derivative root).run.run.run journal = (.ok (.error .singularJacobian), after) ∧
      traced = (.ok (.error .singularJacobian), { r with journal := after })) ∨
    ∃ block after, (derivative root).run.run.run journal = (.ok (.ok block), after) ∧
      root.length = n ∧ block.length = n ∧
      traced = (.ok (.ok (root.mapIdx fun i x => ⟨x, t.size + i.toUInt32⟩)),
        { tape := some { t with
            statements := t.statements.push {
              result := t.size
              stop := t.multipliers.size.toUInt32
              node := some {
                params := parameters.map Traced.index
                sensitivity := block
                firstOutput := t.size } }
            size := t.size + n.toUInt32 }
          journal := after })
  /-- A parameter of another tape is refused, unless the root has no derivative. -/
  foreign {root : List F} {journal : Journal F} {t : Tape F} : plain = (.ok (.ok root), journal) →
    parameters.any Traced.isTracked = true → r.tape = some t →
    (∃ p ∈ parameters, ¬t.Knows p.index) →
    (∃ after, traced = (.ok (.error .singularJacobian), { r with journal := after })) ∨
    ∃ p ∈ parameters, ¬t.Knows p.index ∧ ∃ after,
      traced = (.error (.foreignParameter p.index t.size), { r with journal := after })
  /-- The values are those of the plain solve. -/
  values {roots : List (Traced F)} : traced.1 = .ok (.ok roots) →
    plain.1 = .ok (.ok (roots.map Traced.value))
  /-- What does not succeed leaves the tape as it was. -/
  atomic : (∀ roots, traced.1 ≠ .ok (.ok roots)) → traced.2.tape = r.tape

section Solve

variable [Arith F] {equations : Equations F} {data : Data F} {guess : List F}
  {parameters : List (Traced F)} {f : List (Dual F) → List (Dual F) → List (Dual F)}

/-- Whatever tape is active, attaching changes no value. -/
theorem map_value_of_attach {root : List F} {roots : List (Traced F)} (r : Recorder F)
    (attached : ((attach equations root parameters data).run.run.run r).1 = .ok (.ok roots)) :
    roots.map Traced.value = root := by
  obtain ⟨_ | t, journal⟩ := r
  case some => exact values_of_attach (Prod.ext attached rfl)
  cases tracked : parameters.any Traced.isTracked with
  | true =>
    rw [attach_of_inactive tracked] at attached
    cases attached
  | false =>
    rw [attach_of_untracked tracked] at attached
    cases attached
    rw [List.map_map]
    exact List.map_id' root

/-- What becomes of a root at total equations. -/
theorem attach_plain_and_node {root : List F} {n : Nat} {r : Recorder F} {journal : Journal F}
    (computes : equations.Computes data n parameters.length f) (positive : n ≠ 0)
    (unknowns : root.length = n)
    (fits : (residualAt f (parameters.map Traced.value) root).length = n) :
    PlainAndNode n parameters r (.ok (.ok root), journal)
      (fun root => rootDerivative equations root (parameters.map Traced.value) data)
      ((attach equations root parameters data).run.run.run { r with journal }) := by
  have derivative := rootDerivative_gives computes unknowns
    (List.length_map _ : (parameters.map Traced.value).length = _) fits
  have nonempty {block : Rows F} (length : block.length = n) : block ≠ [] := fun none =>
    positive (by rw [← length, none]; rfl)
  obtain ⟨tape, old⟩ := r
  constructor
  case total => exact ⟨_, _, rfl⟩
  case failed => exact fun ended => nomatch ended
  case untracked =>
    rintro _ _ ⟨⟩ untracked
    exact attach_of_untracked untracked
  case inactive =>
    rintro _ _ ⟨⟩ tracked ⟨⟩
    exact attach_of_inactive tracked
  case recorded =>
    rintro _ _ t ⟨⟩ tracked ⟨⟩ known
    rcases derivative with ⟨events, ran⟩ | ⟨block, ⟨events, ran⟩, length, wide⟩
    · exact .inl ⟨_, ran journal, attach_of_singular tracked (ran journal)⟩
    · refine .inr ⟨block, _, ran journal, unknowns, length, ?_⟩
      have pushed : t.pushNode { params := parameters.map Traced.index, sensitivity := block } = _ :=
        Tape.pushNode_eq_ok_iff.mpr ⟨List.forall_mem_map.mpr known, rfl⟩
      rw [attach_of_block tracked (ran journal) (nonempty length) wide, pushed, ← length]
      rfl
  case foreign =>
    rintro _ _ t ⟨⟩ tracked ⟨⟩ ⟨p, member, unknown⟩
    rcases derivative with ⟨events, ran⟩ | ⟨block, ⟨events, ran⟩, length, wide⟩
    · exact .inl ⟨_, attach_of_singular tracked (ran journal)⟩
    · rw [attach_of_block tracked (ran journal) (nonempty length) wide]
      cases pushed : t.pushNode { params := parameters.map Traced.index, sensitivity := block } with
      | ok next =>
        have known := (Tape.pushNode_eq_ok_iff.mp pushed).1 _ (List.mem_map_of_mem member)
        exact absurd known unknown
      | error fault =>
        obtain ⟨q, listed, other, rfl⟩ := Tape.foreign_of_pushNode_eq_error pushed
        obtain ⟨a, there, rfl⟩ := List.mem_map.mp listed
        exact .inr ⟨a, there, other, _, rfl⟩
  case values =>
    intro roots attached
    rw [map_value_of_attach _ attached]
  case atomic => exact attach_atomic equations root parameters data _

/-- **A traced solve is the plain solve and at most one node.** -/
theorem solveTraced_plain_and_node [SoundComparisons F]
    (computes : equations.Computes data guess.length parameters.length f)
    (settings : Settings F) (r : Recorder F) :
    PlainAndNode guess.length parameters r
      ((solve equations guess (parameters.map Traced.value) data settings).run.run.run r.journal)
      (fun root => rootDerivative equations root (parameters.map Traced.value) data)
      ((solveTraced equations guess parameters data settings).run.run.run r) := by
  have length : (parameters.map Traced.value).length = parameters.length := List.length_map _
  rw [← length] at computes
  obtain ⟨_, _, events, -, -, solved, -⟩ := exists_judged computes settings
  have searched :=
    run_record (findRoot equations guess (parameters.map Traced.value) data settings) r
  rcases found : (findRoot equations guess (parameters.map Traced.value) data
    settings).run.run.run r.journal with ⟨fault | cause | root, journal⟩
  · cases (solved r.journal).symm.trans found
  · rw [found] at searched
    have plain : (solve equations guess (parameters.map Traced.value) data settings).run.run.run
      r.journal = _ := solve_bind_of_error found
    have traced : (solveTraced equations guess parameters data settings).run.run.run r = _ :=
      solve_bind_of_error searched
    rw [plain, traced]
    exact {
      total := ⟨_, _, rfl⟩
      failed := by
        rintro _ _ ⟨⟩
        rfl
      untracked := nofun
      inactive := nofun
      recorded := nofun
      foreign := nofun
      values := nofun
      atomic := fun _ => rfl }
  · rw [found] at searched
    have plain : (solve equations guess (parameters.map Traced.value) data settings).run.run.run
      r.journal = _ := solve_bind_of_ok found
    have traced : (solveTraced equations guess parameters data settings).run.run.run r = _ :=
      solve_bind_of_ok searched
    obtain ⟨some, unknowns, fits⟩ := shape_of_findRoot_ok computes found
    rw [List.length_map] at computes
    rw [plain, traced]
    exact attach_plain_and_node computes (fun none => some (List.length_eq_zero_iff.mp none))
      unknowns fits

/-- A traced solve of `x₀ = y₀` and `x₁ = y₁` on a tape with `y₀` as its only variable, while `y₁`
is a constant. The root is found, and its unknowns are the outputs of one node. -/
theorem solveTraced_plain_and_node_differences :
    let settings : Settings Float := ⟨1e-10, 1e-6, 1000⟩
    let parameters : List (Traced Float) := [⟨2, 0⟩, ⟨3, Index.constant⟩]
    let plain := (solve differences [1, 1] [2, 3] {} settings).run.run.run #[]
    let traced := (solveTraced differences [1, 1] parameters {} settings).run.run.run
      ⟨some { size := 1 }, #[]⟩
    (differences (F := Float)).Computes {} 2 2 difference ∧
    PlainAndNode 2 parameters ⟨some { size := 1 }, #[]⟩ plain
      (fun root => rootDerivative differences root [2, 3] {}) traced ∧
    plain.1 = .ok (.ok [2, 3]) ∧ traced.1 = .ok (.ok [⟨2, 1⟩, ⟨3, 2⟩]) ∧
    traced.2.tape.map Tape.size = some 3 ∧
    (traced.2.tape.map fun t => t.nodes.map fun n => (n.firstOutput, n.params, n.sensitivity)) =
      some [(1, [0, Index.constant], [[1, -0], [-0, 1]])] := by
  intro settings parameters plain traced
  have computes : (differences (F := Float)).Computes {} [(1 : Float), 1].length
      parameters.length difference := fun _ _ _ _ => rfl
  have same := solveTraced_plain_and_node computes settings ⟨some { size := 1 }, #[]⟩
  exact ⟨computes, same, by decide +kernel, by decide +kernel, by decide +kernel, by decide +kernel⟩

end Solve

end ImplicitDiff.Solver
