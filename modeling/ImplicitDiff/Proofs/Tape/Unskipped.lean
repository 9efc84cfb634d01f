import Mathlib.Algebra.GroupWithZero.Defs
import Mathlib.Tactic
import ImplicitDiff.Proofs.Tape.Order
import ImplicitDiff.Proofs.Tape.Thinning

/-! # The sweep without shortcuts

The plain sweep hands every adjoint on, zero or not, and clears what it has handed on. It is the
sweep, number by number and in the same order of operations, where adding a product with zero
changes nothing. Sums need not be associative, products need not distribute over them, and neither
has to be commutative.
-/

namespace ImplicitDiff

variable {F : Type}

section Plain

variable [Zero F] [Add F] [Mul F]

/-- Hands the adjoint of one output on, whatever it is. -/
def Node.spreadRow (n : Node F) (adjoints : Array F) (row : List F) (output : Nat) :
    Except Fault (Array F) := do
  let a ← fetch adjoints[output]?
  (n.params.zip row).foldlM (fun adjoints (p, s) => deposit adjoints p (a * s)) adjoints

/-- Hands the adjoints of one entry on, whatever they are, and clears them afterwards. -/
def Entry.spread (adjoints : Array F) : Entry F → Except Fault (Array F)
  | .node n => do
    let first := n.firstOutput.toNat
    let adjoints ← n.sensitivity.zipIdx.foldlM
      (fun adjoints (row, i) => n.spreadRow adjoints row (first + i)) adjoints
    pure (clearFrom adjoints first n.outputs)
  | .linear result terms => do
    let a ← fetch adjoints[result.toNat]?
    let adjoints ← terms.foldlM (fun adjoints (i, m) => accumulate adjoints i (m * a)) adjoints
    pure (adjoints.setIfInBounds result.toNat 0)

/-- The sweep that tests no adjoint for zero. -/
def Tape.plainSweep (t : Tape F) (seeds : List (Index × F)) : Except Fault (Array F) := do
  let adjoints ← t.seed seeds
  t.entries.reverse.foldlM Entry.spread adjoints

end Plain

/-! ## Clearing early or late -/

section Clearing

variable {adjoints : Array F} {k : Nat}

/-- What is added elsewhere does not meet a place that is overwritten. -/
theorem accumulate_setIfInBounds [Add F] {i : Index} (apart : i.toNat ≠ k) (a amount : F) :
    accumulate (adjoints.setIfInBounds k a) i amount =
      (accumulate adjoints i amount).map (Array.setIfInBounds · k a) := by
  have elsewhere : (adjoints.setIfInBounds k a)[i.toNat]? = adjoints[i.toNat]? := by
    rw [Array.getElem?_setIfInBounds, if_neg apart.symm]
  cases held : adjoints[i.toNat]? with
  | none =>
    have outside := Array.getElem?_eq_none_iff.mp held
    rw [accumulate, accumulate, dif_neg (by simpa using outside), dif_neg outside.not_gt]
    rfl
  | some b =>
    rw [accumulate_eq held, accumulate_eq (elsewhere.trans held),
      Array.setIfInBounds_comm _ _ apart.symm]
    rfl

/-- A place that no share goes to may be overwritten before or after. -/
theorem foldlM_accumulate_setIfInBounds [Add F] {terms : List (Index × F)} (amount : F → F)
    (apart : ∀ term ∈ terms, term.1.toNat ≠ k) (a : F) :
    terms.foldlM (fun adjoints (i, m) => accumulate adjoints i (amount m))
        (adjoints.setIfInBounds k a) =
      (terms.foldlM (fun adjoints (i, m) => accumulate adjoints i (amount m)) adjoints).map
        (Array.setIfInBounds · k a) := by
  induction terms generalizing adjoints with
  | nil => rfl
  | cons term rest ih =>
    rw [List.forall_mem_cons] at apart
    simp only [List.foldlM_cons, accumulate_setIfInBounds apart.1]
    cases accumulate adjoints term.1 (amount term.2) with
    | error fault => rfl
    | ok next => exact ih apart.2

/-- Clearing what is zero changes nothing. -/
theorem setIfInBounds_of_held {a : F} (held : ∀ b, adjoints[k]? = some b → b = a) :
    adjoints.setIfInBounds k a = adjoints := by
  refine Array.ext_getElem? fun i => ?_
  rw [Array.getElem?_setIfInBounds]
  split_ifs with here inside
  · subst here
    rw [← held _ (Array.getElem?_eq_getElem inside), Array.getElem?_eq_getElem inside]
  · subst here
    exact (Array.getElem?_eq_none (not_lt.mp inside)).symm
  · rfl

private theorem clearFrom_of_zeros [Zero F] {first count : Nat}
    (zeros : ∀ i < count, ∀ b, adjoints[first + i]? = some b → b = 0) :
    clearFrom adjoints first count = adjoints := by
  induction count with
  | zero => rfl
  | succ count ih =>
    have before : clearFrom adjoints first count = adjoints :=
      ih fun i earlier => zeros i (earlier.trans (Nat.lt_succ_self _))
    rw [clearFrom, List.range_succ, List.foldl_append, ← clearFrom, before]
    exact setIfInBounds_of_held (zeros count (Nat.lt_succ_self _))

end Clearing

/-! ## Shares of a zero -/

section Shares

variable [MulZeroClass F] [Add F] [BEq F] {adjoints : Array F}
  (add_zero : ∀ a : F, a + 0 = a) (only_zero : ∀ a : F, (a == 0) = true → a = 0)

omit [BEq F] in
include add_zero in
theorem accumulate_zero {i : Index} (bound : i.toNat < adjoints.size) :
    accumulate adjoints i 0 = .ok adjoints := by
  rw [accumulate, dif_pos bound, add_zero, Array.set_getElem_self]

omit [BEq F] in
include add_zero in
private theorem deposit_zero {i : Index} (fits : Fits adjoints i) :
    deposit adjoints i 0 = .ok adjoints := by
  rw [deposit]
  split_ifs with fixed
  · rfl
  · exact accumulate_zero add_zero (fits.resolve_left fixed)

include add_zero only_zero

/-- A row may be passed over where the adjoint is zero. -/
theorem Node.spreadRow_eq (n : Node F) (row : List F) {output : Nat}
    (bound : output < adjoints.size) (fits : ∀ p ∈ n.params, Fits adjoints p) :
    n.spreadRow adjoints row output = n.propagateRow adjoints row output := by
  simp only [spreadRow, propagateRow, Array.getElem?_eq_getElem bound, fetch, pure_bind]
  split_ifs with zero
  · rw [only_zero _ zero]
    refine foldlM_fixed fun term member => ?_
    rw [zero_mul]
    exact deposit_zero add_zero (fits term.1 (List.of_mem_zip member).1)
  · rfl

/-- What a linear entry hands on does not depend on whether a zero is passed over. -/
theorem Entry.spread_linear {result : Index} {terms : List (Index × F)}
    (inside : result.toNat < adjoints.size) (below : ∀ term ∈ terms, term.1.toNat < result.toNat) :
    (Entry.linear result terms).spread adjoints = (Entry.linear result terms).propagate adjoints := by
  obtain ⟨a, held⟩ : ∃ a, adjoints[result.toNat]? = some a := ⟨_, Array.getElem?_eq_getElem inside⟩
  simp only [Entry.spread, Entry.propagate, held, fetch, pure_bind]
  split_ifs with zero
  · cases only_zero a zero
    have shares : terms.foldlM (fun adjoints (i, m) => accumulate adjoints i (m * 0)) adjoints =
        .ok adjoints := by
      refine foldlM_fixed fun term member => ?_
      dsimp only
      rw [mul_zero]
      exact accumulate_zero add_zero ((below term member).trans inside)
    have cleared : adjoints.setIfInBounds result.toNat 0 = adjoints :=
      setIfInBounds_of_held fun b again => Option.some_inj.mp (again.symm.trans held)
    rw [shares]
    exact congrArg Except.ok cleared
  · rw [foldlM_accumulate_setIfInBounds (· * a) fun term member => (below term member).ne]
    rfl

/-- What a node hands on does not depend on whether its zeros are passed over. -/
theorem Entry.spread_node {n : Node F} (stop : n.firstOutput.toNat + n.outputs ≤ adjoints.size)
    (fits : ∀ p ∈ n.params, Fits adjoints p) :
    (Entry.node n).spread adjoints = (Entry.node n).propagate adjoints := by
  have rows : n.sensitivity.zipIdx.foldlM (fun adjoints (row, i) =>
        n.spreadRow adjoints row (n.firstOutput.toNat + i)) adjoints =
      n.sensitivity.zipIdx.foldlM (fun adjoints (row, i) =>
        n.propagateRow adjoints row (n.firstOutput.toNat + i)) adjoints := by
    have alike : List.Forall₂ (fun row other : List F × Nat => row = other ∧ row.2 < n.outputs)
        n.sensitivity.zipIdx n.sensitivity.zipIdx :=
      List.forall₂_same.mpr fun row member => ⟨rfl, List.snd_lt_of_mem_zipIdx member⟩
    have params : ∀ held : Array F, held.size = adjoints.size → ∀ p ∈ n.params, Fits held p := by
      intro held size p listed
      rw [Fits, size]
      exact fits p listed
    refine foldlM_congr (P := fun held => held.size = adjoints.size) ?_ ?_ alike rfl
    · rintro held ⟨row, i⟩ - size ⟨rfl, inside⟩
      exact n.spreadRow_eq add_zero only_zero row (by omega) (params held size)
    · rintro held ⟨row, i⟩ - next size ⟨-, inside⟩ handed
      obtain ⟨next', ran, kept⟩ := n.propagateRow_ok row
        (show n.firstOutput.toNat + i < held.size by omega) (params held size)
      cases ran.symm.trans handed
      exact kept.trans size
  simp only [Entry.spread, Entry.propagate, Node.propagate, rows, mapM_fetch stop, pure_bind]
  split_ifs with blank
  · have zeros : ∀ i < n.outputs, adjointAt adjoints (n.firstOutput.toNat + i) = 0 := by
      intro i inside
      refine only_zero _ (List.all_eq_true.mp blank _ ?_)
      exact List.mem_map_of_mem (List.mem_range.mpr inside)
    have idle : n.sensitivity.zipIdx.foldlM (fun adjoints (row, i) =>
        n.propagateRow adjoints row (n.firstOutput.toNat + i)) adjoints = .ok adjoints := by
      refine foldlM_fixed fun row member => ?_
      have inside : row.2 < n.outputs := List.snd_lt_of_mem_zipIdx member
      have zero : (adjointAt adjoints (n.firstOutput.toNat + row.2) == 0) = true :=
        List.all_eq_true.mp blank _ (List.mem_map_of_mem (List.mem_range.mpr inside))
      simp only [Node.propagateRow, adjointAt_of_lt (show n.firstOutput.toNat + row.2 <
        adjoints.size by omega), fetch, pure_bind, zero, if_true]
      rfl
    rw [idle]
    refine congrArg Except.ok (clearFrom_of_zeros fun i inside b held => ?_)
    rw [← zeros i inside, adjointAt, held]
    rfl
  · rfl

/-- What an entry hands on does not depend on whether zeros are passed over. -/
theorem Entry.Within.spread_eq {e : Entry F} {low : Nat} (within : e.Within low adjoints.size) :
    e.spread adjoints = e.propagate adjoints := by
  cases e with
  | linear result terms =>
    obtain ⟨after, inside, operands⟩ := within
    exact Entry.spread_linear add_zero only_zero inside fun term member =>
      (operands term member).trans_le after
  | node n =>
    obtain ⟨start, stop, operands⟩ := within
    exact Entry.spread_node add_zero only_zero stop fun p listed =>
      (operands p listed).imp id fun below => by omega

end Shares

section Sweep

variable [MulZeroClass F] [Add F] [BEq F]

/-- **Passing over zeros does not change the sweep.** Where only zero equals zero, a product with
zero is zero and adding zero changes nothing, the plain sweep over a tape in order gives what the
sweep gives, from any seeds. From seeds at known places both give an adjoint for each variable. -/
theorem Tape.plainSweep_eq_sweep (add_zero : ∀ a : F, a + 0 = a)
    (only_zero : ∀ a : F, (a == 0) = true → a = 0) {t : Tape F} (ordered : t.InOrder)
    (seeds : List (Index × F)) :
    t.plainSweep seeds = t.sweep seeds ∧
      ((∀ seed ∈ seeds, t.Knows seed.1) →
        ∃ adjoints, t.sweep seeds = .ok adjoints ∧ adjoints.size = t.size.toNat) := by
  refine ⟨?_, ordered.sweep_ok⟩
  have alike : List.Forall₂ (fun e other => e = other ∧ ∃ low, e.Within low t.size.toNat)
      t.entries.reverse t.entries.reverse :=
    List.forall₂_same.mpr fun e member => ⟨rfl, ordered e (List.mem_reverse.mp member)⟩
  rw [plainSweep, sweep]
  cases sown : t.seed seeds with
  | error fault => rfl
  | ok start =>
    refine foldlM_congr (P := fun held => held.size = t.size.toNat) ?_ ?_ alike ?_
    · rintro held e _ size ⟨rfl, low, within⟩
      rw [← size] at within
      exact within.spread_eq add_zero only_zero
    · rintro held e _ next size ⟨-, low, within⟩ handed
      rw [← size] at within
      obtain ⟨next', ran, kept⟩ := within.propagate_ok
      cases ran.symm.trans handed
      exact kept.trans size
    · exact Tape.size_of_seed sown

end Sweep

/-- A node with one row that is passed over, below a statement that is passed over. -/
theorem plainSweep_eq_sweep_through_node :
    ∃ t : Tape ℤ, t.InOrder ∧ t.sweep [(3, 2), (Index.constant, 7)] = .ok #[58, 0, 0, 0, 0] ∧
      t.plainSweep [(3, 2), (Index.constant, 7)] = t.sweep [(3, 2), (Index.constant, 7)] ∧
      ((∀ seed ∈ [((3 : Index), (2 : ℤ)), (Index.constant, 7)], t.Knows seed.1) →
        ∃ adjoints, t.sweep [(3, 2), (Index.constant, 7)] = .ok adjoints ∧
          adjoints.size = t.size.toNat) := by
  have first := Tape.Recorded.blank (F := ℤ) |>.gain (.allocate (by decide))
  have second := first.gain
    (@Tape.Gains.push ℤ _ [(0, 3), (0, 4)] (by decide) (by decide) (by decide))
  have third := second.gain
    (@Tape.Gains.pushNode ℤ _ _ [0, Index.constant, 1] [[1, 2, 3], [8, 5, 3]] _
      (Node.build_eq_ok_iff.mpr ⟨by decide, by decide, rfl⟩)
      (Tape.pushNode_eq_ok_iff.mpr ⟨List.forall_iff_forall_mem.mp (by decide), rfl⟩) (by decide))
  have fourth := third.gain
    (@Tape.Gains.push ℤ _ [(2, -1), (3, 5)] (by decide) (by decide) (by decide))
  exact ⟨_, fourth.inOrder, rfl,
    Tape.plainSweep_eq_sweep Int.add_zero (fun _ => eq_of_beq) fourth.inOrder _⟩

end ImplicitDiff
