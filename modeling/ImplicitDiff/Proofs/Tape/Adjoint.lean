import ImplicitDiff.Proofs.Tape.Propagation
import ImplicitDiff.Proofs.Tape.Tangents

/-! # The sweep is the adjoint of the tangents

Each entry of the sweep keeps the pairing of the adjoints with tangents that obey it, and leaves
zero at the variables that it defines, which no earlier entry touches. So in the end the adjoints of
the independent variables alone give the seeded sum of the tangents.
-/

namespace ImplicitDiff

variable {F : Type}

/-- The entries of a record define variables of that record, as it asked for. -/
theorem Record.mem_equations [CommRing F] {record : Record F} {place : Index} {e : Entry F}
    (member : e ∈ record.entries place) {equation : Nat × List (Index × F)}
    (defines : equation ∈ e.equations) :
    ∃ i terms, record.origins[i]? = some (.combination terms) ∧ equation.1 = place.toNat + i ∧
      ∀ tangents, weigh tangents equation.2 = weigh tangents terms := by
  cases record with
  | independent => cases member
  | linear terms =>
    obtain rfl := List.mem_singleton.mp member
    obtain rfl := List.mem_singleton.mp defines
    exact ⟨0, terms, rfl, rfl, fun tangents => weigh_filter tangents terms⟩
  | node params sensitivity =>
    obtain rfl := List.mem_singleton.mp member
    obtain ⟨⟨row, i⟩, entry, rfl⟩ := List.mem_map.mp defines
    refine ⟨i, params.zip row, ?_, rfl, fun _ => rfl⟩
    rw [origins, List.getElem?_map, List.mk_mem_zipIdx_iff_getElem?.mp entry]
    rfl

/-- Every variable of a record that is not independent is defined by its entry. -/
theorem Record.exists_equation [CommRing F] {record : Record F} (place : Index) {i : Nat}
    {terms : List (Index × F)} (found : record.origins[i]? = some (.combination terms)) :
    ∃ e ∈ record.entries place, ∃ equation ∈ e.equations, equation.1 = place.toNat + i := by
  cases record with
  | independent =>
    have listed := List.mem_of_getElem? found
    cases List.mem_singleton.mp listed
  | linear given =>
    obtain ⟨bound, -⟩ := List.getElem?_eq_some_iff.mp found
    obtain rfl : i = 0 := Nat.lt_one_iff.mp bound
    exact ⟨_, List.mem_singleton_self _, _, List.mem_singleton_self _, rfl⟩
  | node params sensitivity =>
    rw [origins, List.getElem?_map, Option.map_eq_some_iff] at found
    obtain ⟨row, here, -⟩ := found
    have entry := List.mk_mem_zipIdx_iff_getElem?.mpr here
    exact ⟨_, List.mem_singleton_self _, _, List.mem_map_of_mem entry, rfl⟩

/-- What a variable of a record combines are operands of the record. -/
theorem Record.mem_operands {record : Record F} {i : Nat} {terms : List (Index × F)}
    (found : record.origins[i]? = some (.combination terms)) :
    ∀ term ∈ terms, term.1 ∈ record.operands := by
  have listed := List.mem_of_getElem? found
  intro term member
  cases record with
  | independent => cases List.mem_singleton.mp listed
  | linear given =>
    cases List.mem_singleton.mp listed
    exact List.mem_map_of_mem member
  | node params sensitivity =>
    obtain ⟨row, -, same⟩ := List.mem_map.mp listed
    cases same
    exact (List.of_mem_zip member).1

namespace Tape

/-- A record defines new variables by old ones. -/
theorem Gains.within {t next : Tape F} {record : Record F} (now : t.Gains record next) :
    ∀ e ∈ record.entries t.size, e.Within t.size.toNat next.size.toNat := by
  have size := now.size_eq
  have known := now.knows
  intro e member
  cases record with
  | independent => cases member
  | linear terms =>
    obtain rfl := List.mem_singleton.mp member
    refine ⟨le_rfl, by rw [size]; exact Nat.lt_succ_self _, ?_⟩
    intro term tracked
    obtain ⟨listed, varies⟩ := List.mem_filter.mp tracked
    have operand := known term.1 (List.mem_map_of_mem listed)
    exact operand.resolve_left (bne_iff_ne.mp varies)
  | node params sensitivity =>
    obtain rfl := List.mem_singleton.mp member
    refine ⟨le_rfl, ?_, known⟩
    rw [size, Record.origins, List.length_map]
    exact le_rfl

theorem Recorded.grounded {t : Tape F} {history : List (Record F)}
    (recorded : t.Recorded history) : Grounded (origins history) := by
  induction recorded with
  | blank => intro k terms found; simp [origins] at found
  | @gain t next history record before now ih =>
    intro k terms found term member
    obtain old | ⟨i, rfl, new⟩ := before.getElem?_origins_concat.mp found
    · exact ih k terms old term member
    · refine (now.knows _ (Record.mem_operands new term member)).imp id fun below => ?_
      exact (UInt32.lt_iff_toNat_lt.mp below).trans_le (Nat.le_add_right ..)

end Tape

theorem Entry.Within.equation {e : Entry F} {low high : Nat} (within : e.Within low high) :
    ∀ equation ∈ e.equations, low ≤ equation.1 ∧ equation.1 < high ∧
      ∀ term ∈ equation.2, term.1 = Index.constant ∨ term.1.toNat < low := by
  intro equation defines
  cases e with
  | linear result terms =>
    obtain rfl := List.mem_singleton.mp defines
    obtain ⟨after, before, operands⟩ := within
    exact ⟨after, before, fun term member => .inr (operands term member)⟩
  | node n =>
    obtain ⟨start, stop, operands⟩ := within
    obtain ⟨⟨row, i⟩, entry, rfl⟩ := List.mem_map.mp defines
    have inside : i < n.outputs := List.snd_lt_of_mem_zipIdx entry
    refine ⟨?_, ?_, fun term operand => operands term.1 (List.of_mem_zip operand).1⟩
    · dsimp only
      omega
    · dsimp only
      omega

/-- No variable is defined twice by one entry. -/
theorem Entry.nodup_equations (e : Entry F) : (e.equations.map (·.1)).Nodup := by
  cases e with
  | linear result terms => exact List.nodup_singleton _
  | node n =>
    have places : (Entry.node n).equations.map (·.1) =
        (List.range' 0 n.sensitivity.length).map (n.firstOutput.toNat + ·) := by
      rw [← List.zipIdx_map_snd 0 n.sensitivity, equations, List.map_map, List.map_map]
      rfl
    rw [places]
    exact (List.nodup_range' _).map fun i j same => Nat.add_left_cancel same

private theorem sum_cleared [CommRing F] {α : Type} (adjoint : Nat → F) {equations : List (Nat × α)}
    (nodup : (equations.map (·.1)).Nodup) {equation : Nat × α} (listed : equation ∈ equations) :
    (equations.map fun other =>
      adjoint other.1 * (0 - (Pi.single equation.1 1 : Nat → F) other.1)).sum =
        -adjoint equation.1 := by
  induction equations with
  | nil => cases listed
  | cons head rest ih =>
    rw [List.map_cons, List.nodup_cons] at nodup
    rw [List.map_cons, List.sum_cons]
    obtain rfl | later := List.mem_cons.mp listed
    · have others : (rest.map fun other =>
          adjoint other.1 * (0 - (Pi.single equation.1 1 : Nat → F) other.1)).sum = 0 := by
        apply List.sum_eq_zero
        intro a member
        obtain ⟨other, inside, rfl⟩ := List.mem_map.mp member
        have apart : other.1 ≠ equation.1 := by
          rintro same
          exact nodup.1 (same ▸ List.mem_map_of_mem inside)
        rw [Pi.single_eq_of_ne apart, sub_zero, mul_zero]
      rw [others, Pi.single_eq_same]
      ring
    · have apart : head.1 ≠ equation.1 := by
        rintro same
        exact nodup.1 (same ▸ List.mem_map_of_mem later)
      rw [ih nodup.2 later, Pi.single_eq_of_ne apart]
      ring

/-- Tangents obey a layout if every variable that is not independent moves as its operands say. -/
def Obeys [CommRing F] (tangents : Nat → F) (layout : List (Origin F)) : Prop :=
  ∀ k terms, layout[k]? = some (.combination terms) → tangents k = weigh tangents terms

section Sweep

variable [CommRing F] [BEq F] [LawfulBEq F]

/-- One step of the sweep. Adjoints above the entry stay as they are, those of the variables that it
defines become zero, and no tangents that obey it see a difference. -/
theorem Entry.propagate_spec (e : Entry F) {low high : Nat} (within : e.Within low high)
    {adjoints : Array F} (bound : high ≤ adjoints.size) :
    ∃ next, e.propagate adjoints = .ok next ∧ next.size = adjoints.size ∧
      (∀ k, high ≤ k → k < adjoints.size → adjointAt next k = adjointAt adjoints k) ∧
      (∀ equation ∈ e.equations, adjointAt next equation.1 = 0) ∧
      ∀ tangents, (∀ equation ∈ e.equations, tangents equation.1 = weigh tangents equation.2) →
        pairing next tangents = pairing adjoints tangents := by
  obtain ⟨next, handed, shifted⟩ := e.propagate_shifts within bound
  refine ⟨next, handed, shifted.size_eq, ?_, ?_, ?_⟩
  · intro k above inside
    rw [shifted.adjointAt_eq inside, add_eq_left]
    apply List.sum_eq_zero
    intro a member
    obtain ⟨equation, defines, rfl⟩ := List.mem_map.mp member
    obtain ⟨after, before, operands⟩ := within.equation equation defines
    have apart : equation.1 ≠ k := by omega
    dsimp only
    rw [weigh_single operands (by omega), Pi.single_eq_of_ne apart, sub_zero, mul_zero]
  · intro equation defines
    obtain ⟨after, before, -⟩ := within.equation equation defines
    rw [shifted.adjointAt_eq (before.trans_le bound)]
    have others : ∀ other ∈ e.equations,
        weigh (Pi.single equation.1 1) other.2 = 0 := by
      intro other member
      exact weigh_single (within.equation other member).2.2 after
    have change := sum_cleared (adjointAt adjoints) e.nodup_equations defines
    rw [← neg_eq_iff_add_eq_zero, ← change]
    congr 1
    apply List.map_congr_left
    rintro ⟨k, terms⟩ member
    dsimp only
    rw [others _ member]
  · intro tangents obeyed
    rw [shifted.pairing_eq, add_eq_left]
    apply List.sum_eq_zero
    intro a member
    obtain ⟨equation, defines, rfl⟩ := List.mem_map.mp member
    dsimp only
    rw [obeyed equation defines, sub_self, mul_zero]

/-- The part of the sweep that one record takes. -/
theorem Tape.Gains.propagate_spec {t later : Tape F} {record : Record F}
    (now : t.Gains record later) {adjoints : Array F} (bound : later.size.toNat ≤ adjoints.size) :
    ∃ next, (record.entries t.size).reverse.foldlM Entry.propagate adjoints = .ok next ∧
      next.size = adjoints.size ∧
      (∀ k, later.size.toNat ≤ k → k < adjoints.size →
        adjointAt next k = adjointAt adjoints k) ∧
      (∀ i terms, record.origins[i]? = some (.combination terms) →
        adjointAt next (t.size.toNat + i) = 0) ∧
      ∀ tangents, (∀ i terms, record.origins[i]? = some (.combination terms) →
          tangents (t.size.toNat + i) = weigh tangents terms) →
        pairing next tangents = pairing adjoints tangents := by
  have within := now.within
  have asked := @Record.mem_equations F _ record t.size
  have defined := fun i terms => @Record.exists_equation F _ record t.size i terms
  have few : record.entries t.size = [] ∨ ∃ e, record.entries t.size = [e] := by
    cases record with
    | independent => exact .inl rfl
    | linear terms => exact .inr ⟨_, rfl⟩
    | node params sensitivity => exact .inr ⟨_, rfl⟩
  obtain none | ⟨e, single⟩ := few
  · rw [none] at defined ⊢
    refine ⟨adjoints, rfl, rfl, fun _ _ _ => rfl, ?_, fun _ _ => rfl⟩
    intro i terms found
    obtain ⟨e, member, -⟩ := defined i terms found
    cases member
  · rw [single] at within asked defined ⊢
    obtain ⟨next, handed, size, above, cleared, kept⟩ :=
      e.propagate_spec (within e (List.mem_singleton_self e)) bound
    refine ⟨next, ?_, size, above, ?_, ?_⟩
    · rw [List.reverse_singleton, List.foldlM_cons, handed]
      rfl
    · intro i terms found
      obtain ⟨other, member, equation, defines, place⟩ := defined i terms found
      obtain rfl := List.mem_singleton.mp member
      rw [← place]
      exact cleared equation defines
    · intro tangents obeyed
      apply kept
      intro equation defines
      obtain ⟨i, terms, found, place, same⟩ := asked (List.mem_singleton_self e) defines
      rw [place, same, obeyed i terms found]

/-- The whole sweep, from any adjoints on: afterwards only independent variables hold adjoints, and
no tangents that obey the history see a difference. Variables that the tape does not have yet are
not touched, which is what carries the induction over the history. -/
theorem Tape.Recorded.sweep_spec {t : Tape F} {history : List (Record F)}
    (recorded : t.Recorded history) {adjoints : Array F} (bound : t.size.toNat ≤ adjoints.size) :
    ∃ next, t.entries.reverse.foldlM Entry.propagate adjoints = .ok next ∧
      next.size = adjoints.size ∧
      (∀ k, t.size.toNat ≤ k → k < adjoints.size → adjointAt next k = adjointAt adjoints k) ∧
      (∀ k terms, (origins history)[k]? = some (.combination terms) → adjointAt next k = 0) ∧
      ∀ tangents, Obeys tangents (origins history) →
        pairing next tangents = pairing adjoints tangents := by
  induction recorded generalizing adjoints with
  | blank => exact ⟨adjoints, rfl, rfl, fun _ _ _ => rfl, by simp [origins], fun _ _ => rfl⟩
  | @gain t later history record before now ih =>
    obtain ⟨middle, first, size, above, cleared, kept⟩ := now.propagate_spec bound
    have grows : t.size.toNat ≤ later.size.toNat := by
      rw [now.size_eq]
      exact Nat.le_add_right ..
    obtain ⟨next, rest, same, untouched, zeros, pairs⟩ := @ih middle (by omega)
    refine ⟨next, ?_, same.trans size, ?_, ?_, ?_⟩
    · rw [now.entries_eq before.stored, List.reverse_append, List.foldlM_append, first]
      exact rest
    · intro k past inside
      rw [untouched k (by omega) (by omega), above k past inside]
    · intro k terms found
      obtain old | ⟨i, rfl, new⟩ := before.getElem?_origins_concat.mp found
      · exact zeros k terms old
      · have place := (List.getElem?_eq_some_iff.mp new).1
        have top := now.size_eq
        rw [untouched _ (Nat.le_add_right ..) (by omega), cleared i terms new]
    · intro tangents obeyed
      rw [pairs tangents, kept tangents]
      · intro i terms new
        exact obeyed _ terms (before.getElem?_origins_concat.mpr (.inr ⟨i, rfl, new⟩))
      · intro k terms old
        exact obeyed k terms (before.getElem?_origins_concat.mpr (.inl old))

omit [BEq F] [LawfulBEq F] in
private theorem Tape.seed_spec (t : Tape F) {seeds : List (Index × F)}
    (known : ∀ seed ∈ seeds, t.Knows seed.1) :
    ∃ adjoints, t.seed seeds = .ok adjoints ∧ adjoints.size = t.size.toNat ∧
      ∀ tangents, pairing adjoints tangents = weigh tangents seeds := by
  have fits : ∀ seed ∈ seeds, Fits (Array.replicate t.size.toNat (0 : F)) seed.1 := by
    intro seed member
    rw [Fits, Array.size_replicate]
    exact known seed member
  have deposits : ∀ seed ∈ seeds, ∀ adjoints : Array F,
      deposit adjoints seed.1 seed.2 = deposit adjoints seed.1 (1 * seed.2) := by
    intro seed _ adjoints
    rw [one_mul]
  obtain ⟨adjoints, seeded, shifted⟩ := foldlM_shifts 1 deposits fits
  refine ⟨adjoints, seeded, shifted.size_eq.trans Array.size_replicate, fun tangents => ?_⟩
  have blank : pairing (Array.replicate t.size.toNat (0 : F)) tangents = 0 := by
    apply Finset.sum_eq_zero
    intro k inside
    rw [Array.size_replicate, Finset.mem_range] at inside
    simp [adjointAt, inside]
  rw [shifted.pairing_eq, blank, zero_add, one_mul]

/-- The sweep succeeds, and its adjoints give the seeded sum of any tangents that obey the history.
-/
theorem Tape.Recorded.sweep_pairing {t : Tape F} {history : List (Record F)}
    (recorded : t.Recorded history) {seeds : List (Index × F)}
    (known : ∀ seed ∈ seeds, t.Knows seed.1) :
    ∃ adjoints, t.sweep seeds = .ok adjoints ∧ adjoints.size = t.size.toNat ∧
      (∀ k terms, (origins history)[k]? = some (.combination terms) →
        adjointAt adjoints k = 0) ∧
      ∀ tangents, Obeys tangents (origins history) →
        pairing adjoints tangents = weigh tangents seeds := by
  obtain ⟨start, seeded, size, sum⟩ := t.seed_spec known
  obtain ⟨adjoints, swept, same, -, zeros, pairs⟩ := recorded.sweep_spec size.ge
  refine ⟨adjoints, ?_, same.trans size, zeros, ?_⟩
  · rw [sweep, seeded]
    exact swept
  · intro tangents obeyed
    rw [pairs tangents obeyed, sum]

omit [BEq F] [LawfulBEq F] in
theorem Tape.Recorded.obeys {t : Tape F} {history : List (Record F)}
    (recorded : t.Recorded history) (free : Nat → F) :
    Obeys (tangentAt free (origins history)) (origins history) :=
  fun _ _ found => tangentAt_combination free recorded.grounded found

omit [BEq F] [LawfulBEq F] in
/-- Where only independent variables hold adjoints, only their tangents count. -/
theorem pairing_eq_sum_free {adjoints : Array F} {layout : List (Origin F)}
    (size : adjoints.size = layout.length)
    (zeros : ∀ k terms, layout[k]? = some (.combination terms) → adjointAt adjoints k = 0)
    (free : Nat → F) :
    pairing adjoints (tangentAt free layout) =
      ∑ k ∈ freePlaces layout, adjointAt adjoints k * free k := by
  rw [pairing, size, freePlaces, Finset.sum_filter]
  apply Finset.sum_congr rfl
  intro k member
  have inside : k < layout.length := Finset.mem_range.mp member
  have place := List.getElem?_eq_getElem inside
  cases origin : layout[k] with
  | free =>
    rw [origin] at place
    rw [place, tangentAt_free free place]
    rfl
  | combination terms =>
    rw [origin] at place
    rw [zeros k terms place, place, zero_mul]
    rfl

/-- **The sweep is the adjoint of the tangents.** On every recorded tape and for all seeds, however
often a place is seeded, the sweep gives adjoints such that their sum over the independent
variables, each times its tangent, is the sum of the tangents of the seeded variables, each times
its seed. All other adjoints are zero. -/
theorem sweep_pairs_with_tangents {t : Tape F} {history : List (Record F)}
    (recorded : t.Recorded history) (seeds : List (Index × F))
    (known : ∀ seed ∈ seeds, t.Knows seed.1) :
    ∃ adjoints, t.sweep seeds = .ok adjoints ∧ adjoints.size = t.size.toNat ∧
      (∀ free : Nat → F, ∑ k ∈ freePlaces (origins history), adjointAt adjoints k * free k =
        weigh (tangentAt free (origins history)) seeds) ∧
      ∀ k < adjoints.size, k ∉ freePlaces (origins history) → adjointAt adjoints k = 0 := by
  obtain ⟨adjoints, swept, size, zeros, pairs⟩ := recorded.sweep_pairing known
  have places : adjoints.size = (origins history).length := size.trans recorded.size_eq
  refine ⟨adjoints, swept, size, fun free => ?_, ?_⟩
  · rw [← pairs _ (recorded.obeys free), pairing_eq_sum_free places zeros]
  · intro k inside bound
    rw [places] at inside
    have place := List.getElem?_eq_getElem inside
    cases origin : (origins history)[k] with
    | free => exact absurd (mem_freePlaces.mpr (origin ▸ place)) bound
    | combination terms => exact zeros k terms (origin ▸ place)

end Sweep

/-- A node with a repeated parameter and a constant one, read twice by seeds, between statements and
with an independent variable recorded after it. -/
theorem sweep_pairs_with_tangents_through_node :
    ∃ (t : Tape ℤ) (history : List (Record ℤ)), t.Recorded history ∧
      t.sweep [(5, 1), (3, 2), (Index.constant, 7), (3, 1)] = .ok #[121, 0, 0, 0, 5, 0] ∧
      ∃ adjoints, t.sweep [(5, 1), (3, 2), (Index.constant, 7), (3, 1)] = .ok adjoints ∧
        adjoints.size = t.size.toNat ∧
        (∀ free : Nat → ℤ, ∑ k ∈ freePlaces (origins history), adjointAt adjoints k * free k =
          weigh (tangentAt free (origins history))
            [(5, 1), (3, 2), (Index.constant, 7), (3, 1)]) ∧
        ∀ k < adjoints.size, k ∉ freePlaces (origins history) → adjointAt adjoints k = 0 := by
  have first := Tape.Recorded.blank (F := ℤ) |>.gain (.allocate (by decide))
  have second := first.gain
    (@Tape.Gains.push ℤ _ [(0, 3), (0, 4), (Index.constant, 9)]
      (by decide) (by decide) (by decide))
  have third := second.gain
    (@Tape.Gains.pushNode ℤ _ _ [0, Index.constant, 1, 0] [[1, 2, 3, 4], [0, 5, 6, 7]] _
      (Node.build_eq_ok_iff.mpr ⟨by decide, by decide, rfl⟩)
      (Tape.pushNode_eq_ok_iff.mpr ⟨List.forall_iff_forall_mem.mp (by decide), rfl⟩) (by decide))
  have fourth := third.gain (.allocate (by decide))
  have fifth := fourth.gain
    (@Tape.Gains.push ℤ _ [(2, -1), (4, 5)] (by decide) (by decide) (by decide))
  exact ⟨_, _, fifth, rfl, sweep_pairs_with_tangents fifth _ (by decide)⟩

end ImplicitDiff
