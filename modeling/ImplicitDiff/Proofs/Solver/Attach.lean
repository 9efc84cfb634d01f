import ImplicitDiff.Proofs.Derivative.Linear
import ImplicitDiff.Proofs.Program.Operations
import ImplicitDiff.Proofs.Solver.Sensitivity

/-! # Roots on a tape

A root that depends on tracked parameters becomes one node. Its outputs follow dual numbers whose
tangents are the products of the block with the tangents of the parameters, whatever mix of
constants and variables, repeated ones included, the parameters are; if none is tracked, these
products are zero.
-/

namespace ImplicitDiff.Solver

variable {F : Type}

section Attach

theorem ofExcept_eq_ok_iff {α : Type} {result : Except Fault α} {a : α} {r last : Recorder F} :
    (liftM result : TracedSolveM F α).run.run.run r = (.ok (.ok a), last) ↔
      result = .ok a ∧ r = last := by
  cases result with
  | error fault => exact ⟨fun ended => (nomatch ended), fun ended => (nomatch ended.1)⟩
  | ok b =>
    constructor
    · intro ran
      cases ran
      exact ⟨rfl, rfl⟩
    · rintro ⟨same, rfl⟩
      cases same
      rfl

private theorem pushNode_eq_ok {n : Node F} {t : Tape F} {journal : Journal F} {first : Index}
    {last : Recorder F}
    (pushed : (liftM (RecordM.pushNode n) : TracedSolveM F Index).run.run.run ⟨some t, journal⟩ =
      (.ok (.ok first), last)) :
    ∃ next, t.pushNode n = .ok next ∧ first = t.size ∧ last = ⟨some next, journal⟩ := by
  have run := RecordM.run_pushNode n t journal
  cases result : t.pushNode n with
  | error fault =>
    rw [result] at run
    cases (run_bind_of_error run).symm.trans pushed
  | ok next =>
    rw [result] at run
    cases (run_bind_of_ok run).symm.trans pushed
    exact ⟨next, rfl, rfl, rfl⟩

theorem run_record {α : Type} (body : SolveM F α) (r : Recorder F) :
    (SolveM.record body).run.run.run r =
      ((body.run.run.run r.journal).1, { r with journal := (body.run.run.run r.journal).2 }) := rfl

theorem record_eq_ok_iff {α : Type} {body : SolveM F α} {a : α} {r last : Recorder F} :
    (SolveM.record body).run.run.run r = (.ok (.ok a), last) ↔
      ∃ journal, body.run.run.run r.journal = (.ok (.ok a), journal) ∧ last = { r with journal } := by
  rw [run_record]
  constructor
  · intro same
    obtain ⟨result, rfl⟩ := Prod.mk.inj same
    exact ⟨_, Prod.ext result rfl, rfl⟩
  · rintro ⟨journal, ran, rfl⟩
    rw [ran]

variable [Arith F]

theorem attach_of_untracked {equations : Equations F} {point : List F}
    {parameters : List (Traced F)} {data : Data F} {r : Recorder F}
    (untracked : parameters.any Traced.isTracked = false) :
    (attach equations point parameters data).run.run.run r =
      (.ok (.ok (point.map Traced.constant)), r) := by
  rw [attach, untracked]
  rfl

/-- What a root leaves on the tape: nothing if no parameter is tracked, and otherwise one node with
the derivative of the root as its block. -/
theorem attach_eq_ok {equations : Equations F} {point : List F} {parameters root : List (Traced F)}
    {data : Data F} {t : Tape F} {journal : Journal F} {last : Recorder F}
    (attached : (attach equations point parameters data).run.run.run ⟨some t, journal⟩ =
      (.ok (.ok root), last)) :
    (parameters.any Traced.isTracked = false ∧ root = point.map Traced.constant ∧
      last = ⟨some t, journal⟩) ∨
    parameters.any Traced.isTracked = true ∧ ∃ block node next after,
      (rootDerivative equations point (parameters.map Traced.value) data).run.run.run journal =
        (.ok (.ok block), after) ∧
      Node.build (parameters.map Traced.index) block = .ok node ∧ t.pushNode node = .ok next ∧
      root = point.mapIdx (fun i x => ⟨x, t.size + i.toUInt32⟩) ∧ last = ⟨some next, after⟩ := by
  unfold attach at attached
  split_ifs at attached with tracked
  · refine .inr ⟨tracked, ?_⟩
    obtain ⟨recorder, second, got, attached⟩ := solve_bind_eq_ok_iff.mp attached
    cases got
    dsimp only at attached
    simp only [Option.isNone_some, Bool.false_eq_true, if_false] at attached
    obtain ⟨block, third, derived, attached⟩ := solve_bind_eq_ok_iff.mp attached
    obtain ⟨after, found, rfl⟩ := record_eq_ok_iff.mp derived
    obtain ⟨node, fourth, built, attached⟩ := solve_bind_eq_ok_iff.mp attached
    obtain ⟨well, rfl⟩ := ofExcept_eq_ok_iff.mp built
    obtain ⟨first, fifth, pushed, attached⟩ := solve_bind_eq_ok_iff.mp attached
    obtain ⟨next, accepted, rfl, rfl⟩ := pushNode_eq_ok pushed
    cases attached
    exact ⟨block, node, next, after, found, well, accepted, rfl, rfl⟩
  · cases attached
    exact .inl ⟨by simpa using tracked, rfl, rfl⟩

/-- The unknowns have the values of the root. -/
theorem values_of_attach {equations : Equations F} {point : List F}
    {parameters root : List (Traced F)} {data : Data F} {t : Tape F} {journal : Journal F}
    {last : Recorder F}
    (attached : (attach equations point parameters data).run.run.run ⟨some t, journal⟩ =
      (.ok (.ok root), last)) : root.map Traced.value = point := by
  have entries (place : Nat → Index) :
      (point.mapIdx fun i x => (⟨x, place i⟩ : Traced F)).map Traced.value = point := by
    apply List.ext_getElem?
    intro i
    rw [List.getElem?_map, List.getElem?_mapIdx, Option.map_map]
    exact Option.map_id'
  obtain ⟨-, rfl, -⟩ | ⟨-, block, node, next, after, -, -, -, rfl, -⟩ := attach_eq_ok attached
  · rw [List.map_map]
    exact List.map_id' point
  · exact entries _

end Attach

section Node

variable [ExactField F]

/-- The tangents that a block gives to a root, from those of the parameters. -/
def transported (block : Rows F) (parameters : List (Dual F)) (i : Nat) : F :=
  ((parameters.zip (block.getD i [])).map fun (d, w) => w * d.tangent).sum

/-- The outputs of a node that is recorded move as its block says. -/
theorem node_follows {free : Nat → F} {s : Recording F} {duals : List (Dual F)}
    {parameters : List (Traced F)} (follow : List.Forall₂ (Recording.Follows free s) duals parameters)
    {block : Rows F} {node : Node F} {next : Tape F}
    (built : Node.build (parameters.map Traced.index) block = .ok node)
    (pushed : s.tape.pushNode node = .ok next) {point : List F}
    (length : block.length = point.length) {spare : Nat} (room : s.Room (point.length + spare)) :
    ∃ t : Recording F, t.tape = next ∧ s.Later t ∧ t.Room spare ∧
      List.Forall₂ (Recording.Follows free t) (varied (transported block duals) point)
        (point.mapIdx fun i x => ⟨x, s.tape.size + i.toUInt32⟩) := by
  have outputs : node.outputs = point.length := by
    obtain ⟨-, -, rfl⟩ := Node.build_eq_ok_iff.mp built
    exact length
  have now : s.tape.Gains (.node (parameters.map Traced.index) block) next :=
    .pushNode built pushed (by have := room.places; omega)
  let t : Recording F := ⟨next, s.history ++ [.node (parameters.map Traced.index) block],
    s.recorded.gain now⟩
  have after : s.Later t := ⟨_, rfl⟩
  have size : t.tape.size.toNat = s.tape.size.toNat + point.length := by
    rw [← length]
    exact now.size_eq.trans (congrArg _ (List.length_map _))
  refine ⟨t, rfl, after, ?_, ?_⟩
  · obtain ⟨places, operands⟩ := room
    have same : next.multipliers = s.tape.multipliers := by
      obtain ⟨-, grown⟩ := Tape.pushNode_eq_ok_iff.mp pushed
      rw [grown]
    constructor
    · omega
    · change next.multipliers.size + 2 * spare < 2 ^ 32
      rw [same]
      omega
  · apply follows_mapIdx
    intro i inside
    have words : (s.tape.size + i.toUInt32).toNat = s.tape.size.toNat + i := by
      have places := room.places
      rw [UInt32.toNat_add, Nat.toUInt32_eq, UInt32.toNat_ofNat']
      omega
    have here : s.tape.size + i.toUInt32 < t.tape.size := by
      rw [UInt32.lt_iff_toNat_lt, words, size]
      omega
    have found : (origins t.history)[s.tape.size.toNat + i]? =
        some (.combination ((parameters.map Traced.index).zip (block.getD i []))) := by
      refine s.recorded.getElem?_origins_concat.mpr (.inr ⟨i, rfl, ?_⟩)
      have row : i < block.length := length ▸ inside
      rw [Record.origins, List.getElem?_map, List.getElem?_eq_getElem row, Option.map_some,
        List.getD_eq_getElem?_getD, List.getElem?_eq_getElem row]
      rfl
    refine ⟨.inr here, ?_⟩
    rw [rate, if_neg (t.ne_constant here), words, Recording.tangents,
      tangentAt_combination free t.recorded.grounded found]
    exact (weigh_zip (follow.imp fun _ _ old => old.later after) _).symm

private theorem transported_nil (duals : List (Dual F)) (i : Nat) : transported [] duals i = 0 := by
  simp [transported]

/-- **A root on a tape follows its derivative**, in every direction at a time. If a parameter is
tracked, the block is the derivative of the root, whatever the journal holds, and otherwise no
parameter moves. -/
theorem attach_follows {equations : Equations F} {point : List F}
    {parameters root : List (Traced F)} {data : Data F} {tape : Tape F} {journal : Journal F}
    {last : Recorder F}
    (attached : (attach equations point parameters data).run.run.run ⟨some tape, journal⟩ =
      (.ok (.ok root), last))
    {s : (Nat → F) → Recording F} (same : ∀ free, (s free).tape = tape)
    {duals : (Nat → F) → List (Dual F)}
    (follow : ∀ free, List.Forall₂ (Recording.Follows free (s free)) (duals free) parameters)
    {spare : Nat} (room : ∀ free, (s free).Room (point.length + spare)) :
    ∃ block next after, last = ⟨some next, after⟩ ∧
      (parameters.any Traced.isTracked = true → ∀ journal,
        ((rootDerivative equations point (parameters.map Traced.value) data).run.run.run journal).1 =
          .ok (.ok block)) ∧
      (parameters.any Traced.isTracked = false → ∀ free, ∀ d ∈ duals free, d.tangent = 0) ∧
      ∀ free, ∃ t : Recording F, t.tape = next ∧ (s free).Later t ∧ t.Room spare ∧
        List.Forall₂ (Recording.Follows free t) (varied (transported block (duals free)) point)
          root := by
  obtain ⟨fixed, rfl, rfl⟩ | ⟨tracked, block, node, next, after, derived, built, pushed, rfl, rfl⟩ :=
    attach_eq_ok attached
  · refine ⟨[], tape, journal, rfl, fun tracked => ?_, fun _ free d member => ?_, fun free => ?_⟩
    · rw [fixed] at tracked
      cases tracked
    · obtain ⟨a, listed, here⟩ := exists_related (follow free).flip d member
      have untracked := List.any_eq_false.mp fixed a listed
      have constant : a.index = Index.constant := by simpa [Traced.isTracked] using untracked
      exact here.tangent.trans (if_pos constant)
    · refine ⟨s free, same free, .refl _, (room free).weaken (Nat.le_add_left ..), ?_⟩
      have constants : point.map Traced.constant = point.mapIdx fun _ x => ⟨x, Index.constant⟩ := by
        apply List.ext_getElem?
        intro i
        rw [List.getElem?_map, List.getElem?_mapIdx]
        rfl
      rw [constants]
      exact follows_mapIdx fun i _ => ⟨.inl rfl, transported_nil _ i⟩
  · refine ⟨block, next, after, rfl, fun _ => ?_, fun fixed => ?_, fun free => ?_⟩
    · obtain ⟨result, events, ran⟩ :=
        exists_endsIn_rootDerivative equations point (parameters.map Traced.value) data
      have value := (congrArg Prod.fst (ran journal)).symm.trans (congrArg Prod.fst derived)
      intro other
      exact (congrArg Prod.fst (ran other)).trans value
    · rw [tracked] at fixed
      cases fixed
    · have length := length_rootDerivative derived
      rw [← same free] at pushed ⊢
      exact node_follows (follow free) built pushed length (room free)

end Node

end ImplicitDiff.Solver
