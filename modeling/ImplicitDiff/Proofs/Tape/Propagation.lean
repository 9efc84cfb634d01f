import ImplicitDiff.Proofs.Tape.Pairing

/-! # What an entry does to the adjoints

Whatever the path through zeros and rows, an entry replaces each variable that it defines by the
combination of its operands, and nothing else happens to the pairing with tangents. Zeros that are
passed over would have contributed nothing, and the outputs of a node keep their adjoints until all
its rows are handed on, because its operands lie below them.
-/

namespace ImplicitDiff

variable {F : Type} [CommRing F]

section Deposits

variable {adjoints : Array F}

/-- A place that can take a share of an adjoint, or a constant, which takes none. -/
def Fits (adjoints : Array F) (i : Index) : Prop :=
  i = Index.constant ∨ i.toNat < adjoints.size

private theorem deposit_shifts (i : Index) (amount : F) (fits : Fits adjoints i) :
    ∃ next, deposit adjoints i amount = .ok next ∧
      Shifted adjoints next fun tangents => weigh tangents [(i, amount)] := by
  unfold deposit
  split_ifs with fixed
  · exact ⟨adjoints, rfl, .of_eq fun _ => by simp [weigh, fixed]⟩
  · have bound := fits.resolve_left fixed
    rw [accumulate, dif_pos bound]
    refine ⟨_, rfl, Array.size_set .., fun tangents => ?_⟩
    have here : adjointAt adjoints i.toNat = adjoints[i.toNat] := by simp [adjointAt, bound]
    rw [pairing_set, here]
    simp [weigh, fixed]

/-- Shares of one adjoint, handed out in a row. -/
theorem foldlM_shifts (a : F) {step : Array F → Index × F → Except Fault (Array F)}
    {terms : List (Index × F)}
    (deposits : ∀ term ∈ terms, ∀ adjoints,
      step adjoints term = deposit adjoints term.1 (a * term.2))
    (fits : ∀ term ∈ terms, Fits adjoints term.1) :
    ∃ next, terms.foldlM step adjoints = .ok next ∧
      Shifted adjoints next fun tangents => a * weigh tangents terms := by
  induction terms generalizing adjoints with
  | nil => exact ⟨adjoints, rfl, .of_eq fun _ => mul_zero a⟩
  | cons term rest ih =>
    simp only [List.forall_mem_cons] at deposits fits
    obtain ⟨middle, first, shifted⟩ := deposit_shifts term.1 (a * term.2) fits.1
    have still : ∀ term ∈ rest, Fits middle term.1 := by
      intro term member
      rw [Fits, shifted.size_eq]
      exact fits.2 term member
    obtain ⟨next, others, moved⟩ := ih deposits.2 still
    refine ⟨next, ?_, (shifted.trans moved).congr fun tangents => ?_⟩
    · rw [List.foldlM_cons, deposits.1, first]
      exact others
    · rw [weigh_cons _ term, mul_add]
      congr 1
      simp only [weigh, List.map_cons, List.map_nil, List.sum_singleton]
      split_ifs <;> ring

end Deposits

/-- The variables that an entry defines, each with the operands that it combines. -/
def Entry.equations : Entry F → List (Nat × List (Index × F))
  | .linear result terms => [(result.toNat, terms)]
  | .node n => n.sensitivity.zipIdx.map fun (row, i) => (n.firstOutput.toNat + i, n.params.zip row)

/-- The entry defines variables from `low` to `high` by variables below `low`. Only a node has
constants among its operands; a linear entry has lost them. -/
def Entry.Within (low high : Nat) : Entry F → Prop
  | .linear result terms =>
    low ≤ result.toNat ∧ result.toNat < high ∧ ∀ term ∈ terms, term.1.toNat < low
  | .node n =>
    low ≤ n.firstOutput.toNat ∧ n.firstOutput.toNat + n.outputs ≤ high ∧
      ∀ p ∈ n.params, p = Index.constant ∨ p.toNat < low

private theorem clearFrom_shifts (adjoints : Array F) (first count : Nat)
    (bound : first + count ≤ adjoints.size) :
    Shifted adjoints (clearFrom adjoints first count) fun tangents =>
      ((List.range count).map fun i =>
        -(adjointAt adjoints (first + i) * tangents (first + i))).sum := by
  induction count with
  | zero => exact .of_eq fun _ => rfl
  | succ count ih =>
    have before := ih (by omega)
    have here : first + count < (clearFrom adjoints first count).size := by
      rw [before.size_eq]
      omega
    have held : adjointAt (clearFrom adjoints first count) (first + count) =
        adjointAt adjoints (first + count) := by
      rw [before.adjointAt_eq (by omega), add_eq_left]
      apply List.sum_eq_zero
      intro a member
      obtain ⟨i, earlier, rfl⟩ := List.mem_map.mp member
      have apart : first + i ≠ first + count := by
        have := List.mem_range.mp earlier
        omega
      rw [Pi.single_eq_of_ne apart, mul_zero, neg_zero]
    have last : clearFrom adjoints first (count + 1) =
        (clearFrom adjoints first count).setIfInBounds (first + count) 0 := by
      simp only [clearFrom, List.range_succ, List.foldl_append, List.foldl_cons, List.foldl_nil]
    refine ⟨?_, fun tangents => ?_⟩
    · rw [last, Array.size_setIfInBounds, before.size_eq]
    · rw [last, pairing_setIfInBounds _ _ _ here, before.pairing_eq, held]
      simp only [List.range_succ, List.map_append, List.sum_append, List.map_cons, List.map_nil,
        List.sum_singleton]
      ring

section Propagation

variable [BEq F] [LawfulBEq F] {adjoints : Array F}

private theorem Node.propagateRow_shifts (n : Node F) (row : List F) {output : Nat}
    (bound : output < adjoints.size) (fits : ∀ term ∈ n.params.zip row, Fits adjoints term.1) :
    ∃ next, n.propagateRow adjoints row output = .ok next ∧
      Shifted adjoints next fun tangents =>
        adjointAt adjoints output * weigh tangents (n.params.zip row) := by
  simp only [propagateRow, adjointAt_of_lt bound, fetch, pure_bind]
  split_ifs with zero
  · exact ⟨adjoints, rfl, .of_eq fun _ => by rw [eq_of_beq zero, zero_mul]⟩
  · exact foldlM_shifts _ (fun _ _ _ => rfl) fits

/-- The rows of a node are handed on one after the other. The outputs keep their adjoints meanwhile,
because no parameter is among them. -/
theorem Node.foldlM_propagateRow_shifts (n : Node F) (rows : List (List F × Nat)) {first : Nat}
    (bound : ∀ row ∈ rows, first + row.2 < adjoints.size)
    (earlier : ∀ row ∈ rows, ∀ term ∈ n.params.zip row.1,
      term.1 = Index.constant ∨ term.1.toNat < first) :
    ∃ next, rows.foldlM (fun adjoints (row, i) => n.propagateRow adjoints row (first + i))
        adjoints = .ok next ∧
      Shifted adjoints next fun tangents => (rows.map fun (row, i) =>
        adjointAt adjoints (first + i) * weigh tangents (n.params.zip row)).sum := by
  induction rows generalizing adjoints with
  | nil => exact ⟨adjoints, rfl, .of_eq fun _ => rfl⟩
  | cons pair rest ih =>
    obtain ⟨row, i⟩ := pair
    simp only [List.forall_mem_cons] at bound earlier
    have fits : ∀ term ∈ n.params.zip row, Fits adjoints term.1 := fun term member =>
      (earlier.1 term member).imp id fun below => by have := bound.1; omega
    obtain ⟨middle, handed, shifted⟩ := n.propagateRow_shifts row bound.1 fits
    have kept (k : Nat) (inside : first + k < adjoints.size) :
        adjointAt middle (first + k) = adjointAt adjoints (first + k) := by
      rw [shifted.adjointAt_eq inside, weigh_single earlier.1 (Nat.le_add_right ..), mul_zero,
        add_zero]
    obtain ⟨next, others, moved⟩ := ih (shifted.size_eq ▸ bound.2) earlier.2
    refine ⟨next, ?_, (shifted.trans moved).congr fun tangents => ?_⟩
    · rw [List.foldlM_cons]
      dsimp only
      rw [handed]
      exact others
    · rw [List.map_cons, List.sum_cons, add_right_inj]
      congr 1
      apply List.map_congr_left
      rintro ⟨other, k⟩ member
      dsimp only
      rw [kept k (bound.2 _ member)]

theorem Node.propagate_shifts (n : Node F) {low high : Nat}
    (within : (Entry.node n).Within low high) (bound : high ≤ adjoints.size) :
    ∃ next, n.propagate adjoints = .ok next ∧
      Shifted adjoints next fun tangents => ((Entry.node n).equations.map fun (k, terms) =>
        adjointAt adjoints k * (weigh tangents terms - tangents k)).sum := by
  obtain ⟨start, stop, operands⟩ := within
  have inside : ∀ i < n.outputs, n.firstOutput.toNat + i < adjoints.size := by
    intro i row
    omega
  have rows : ∀ row ∈ n.sensitivity.zipIdx, n.firstOutput.toNat + row.2 < adjoints.size :=
    fun row member => inside row.2 (List.snd_lt_of_mem_zipIdx member)
  have earlier : ∀ row ∈ n.sensitivity.zipIdx, ∀ term ∈ n.params.zip row.1,
      term.1 = Index.constant ∨ term.1.toNat < n.firstOutput.toNat := by
    intro row _ term operand
    have known := operands term.1 (List.of_mem_zip operand).1
    exact known.imp id fun below => below.trans_le start
  simp only [propagate, mapM_fetch (stop.trans bound), pure_bind, Entry.equations, List.map_map,
    Function.comp_def]
  split_ifs with zero
  · refine ⟨adjoints, rfl, .of_eq fun tangents => List.sum_eq_zero ?_⟩
    simp only [List.all_map, List.all_eq_true, Function.comp_apply, List.mem_range] at zero
    intro a member
    obtain ⟨⟨row, i⟩, entry, rfl⟩ := List.mem_map.mp member
    rw [eq_of_beq (zero i (List.snd_lt_of_mem_zipIdx entry)), zero_mul]
  · obtain ⟨middle, handed, shifted⟩ := n.foldlM_propagateRow_shifts _ rows earlier
    have outputs : n.firstOutput.toNat + n.outputs ≤ middle.size :=
      (stop.trans bound).trans_eq shifted.size_eq.symm
    have kept (row : List F × Nat) (member : row ∈ n.sensitivity.zipIdx) :
        adjointAt middle (n.firstOutput.toNat + row.2) =
          adjointAt adjoints (n.firstOutput.toNat + row.2) := by
      rw [shifted.adjointAt_eq (rows row member), add_eq_left]
      apply List.sum_eq_zero
      intro a share
      obtain ⟨⟨other, i⟩, entry, rfl⟩ := List.mem_map.mp share
      dsimp only
      rw [weigh_single (earlier _ entry) (Nat.le_add_right ..), mul_zero]
    refine ⟨_, ?_, (shifted.trans (clearFrom_shifts middle _ _ outputs)).congr fun tangents => ?_⟩
    · rw [handed]
      rfl
    · have places : List.range n.outputs = n.sensitivity.zipIdx.map (·.2) := by
        rw [List.zipIdx_map_snd, List.range_eq_range']
        rfl
      rw [places, List.map_map, ← List.sum_map_add]
      congr 1
      apply List.map_congr_left
      intro row member
      rw [Function.comp_apply, kept row member]
      ring

/-- An entry replaces each variable that it defines by the combination of its operands. -/
theorem Entry.propagate_shifts (e : Entry F) {low high : Nat} (within : e.Within low high)
    (bound : high ≤ adjoints.size) :
    ∃ next, e.propagate adjoints = .ok next ∧
      Shifted adjoints next fun tangents => (e.equations.map fun (k, terms) =>
        adjointAt adjoints k * (weigh tangents terms - tangents k)).sum := by
  cases e with
  | node n => exact n.propagate_shifts within bound
  | linear result terms =>
    obtain ⟨after, before, operands⟩ := within
    have inside : result.toNat < adjoints.size := before.trans_le bound
    simp only [propagate, adjointAt_of_lt inside, fetch, pure_bind, equations, List.map_cons,
      List.map_nil, List.sum_singleton]
    split_ifs with zero
    · exact ⟨adjoints, rfl, .of_eq fun _ => by rw [eq_of_beq zero, zero_mul]⟩
    · have cleared : Shifted adjoints (adjoints.setIfInBounds result.toNat 0) fun tangents =>
          -(adjointAt adjoints result.toNat * tangents result.toNat) :=
        ⟨Array.size_setIfInBounds, fun tangents => by
          rw [pairing_setIfInBounds _ _ _ inside, zero_sub, neg_mul]⟩
      have fits : ∀ term ∈ terms, Fits (adjoints.setIfInBounds result.toNat 0) term.1 := by
        intro term member
        have below := operands term member
        rw [Fits, cleared.size_eq]
        omega
      have deposits : ∀ term ∈ terms, ∀ others : Array F,
          accumulate others term.1 (term.2 * adjointAt adjoints result.toNat) =
            deposit others term.1 (adjointAt adjoints result.toNat * term.2) := by
        intro term member others
        have varies : term.1 ≠ Index.constant := by
          rintro fixed
          have below := operands term member
          have word := result.toNat_lt
          rw [fixed, Index.constant] at below
          change 2 ^ 32 - 1 < low at below
          omega
        rw [deposit, if_neg varies, mul_comm]
      obtain ⟨next, handed, shifted⟩ := foldlM_shifts _ deposits fits
      refine ⟨next, handed, (cleared.trans shifted).congr fun tangents => ?_⟩
      ring

end Propagation

end ImplicitDiff
