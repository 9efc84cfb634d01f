import Mathlib.Tactic
import ImplicitDiff.Proofs.Tape.Adjoint

/-! # Sweeps over tapes in order

A tape is in order if each of its entries defines variables by earlier ones. Every recorded tape is.
A sweep over such a tape finds every place that it looks for, whatever arithmetic does with the
numbers there. Two sweeps are compared step by step: they agree as long as their steps agree on all
adjoints that they can come across.
-/

namespace ImplicitDiff

/-! ## Loops that may end in a fault -/

section Loops

variable {α α' β ε : Type}

/-- A loop whose rounds succeed on what has a property, and keep it, succeeds and keeps it. -/
theorem foldlM_keeps {P : β → Prop} {f : β → α → Except ε β} {items : List α}
    (each : ∀ a ∈ items, ∀ b, P b → ∃ next, f b a = .ok next ∧ P next) {b : β} (start : P b) :
    ∃ last, items.foldlM f b = .ok last ∧ P last := by
  induction items generalizing b with
  | nil => exact ⟨b, rfl, start⟩
  | cons a rest ih =>
    rw [List.forall_mem_cons] at each
    obtain ⟨next, first, kept⟩ := each.1 b start
    obtain ⟨last, others, final⟩ := ih each.2 kept
    refine ⟨last, ?_, final⟩
    rw [List.foldlM_cons, first]
    exact others

/-- A property that the successful rounds of a loop keep holds at its end. -/
theorem foldlM_preserves {P : β → Prop} {f : β → α → Except ε β} {items : List α}
    (each : ∀ a ∈ items, ∀ b next, P b → f b a = .ok next → P next) {b last : β} (start : P b)
    (ran : items.foldlM f b = .ok last) : P last := by
  induction items generalizing b with
  | nil =>
    cases ran
    exact start
  | cons a rest ih =>
    rw [List.forall_mem_cons] at each
    rw [List.foldlM_cons, except_bind_eq_ok_iff] at ran
    obtain ⟨next, first, others⟩ := ran
    exact ih each.2 (each.1 b next start first) others

/-- A loop whose rounds change nothing changes nothing. -/
theorem foldlM_fixed {f : β → α → Except ε β} {items : List α} {b : β}
    (each : ∀ a ∈ items, f b a = .ok b) : items.foldlM f b = .ok b := by
  induction items with
  | nil => rfl
  | cons a rest ih =>
    rw [List.forall_mem_cons] at each
    rw [List.foldlM_cons, each.1]
    exact ih each.2

/-- Two loops are the same if their rounds are, on all that has a property which the rounds keep. -/
theorem foldlM_congr {P : β → Prop} {R : α → α' → Prop} {step : β → α → Except ε β}
    {other : β → α' → Except ε β}
    (same : ∀ b a a', P b → R a a' → other b a' = step b a)
    (keeps : ∀ b a a' next, P b → R a a' → step b a = .ok next → P next)
    {items : List α} {others : List α'} (related : List.Forall₂ R items others) {b : β}
    (start : P b) : others.foldlM other b = items.foldlM step b := by
  induction related generalizing b with
  | nil => rfl
  | cons first _ ih =>
    rw [List.foldlM_cons, List.foldlM_cons, same _ _ _ start first]
    cases ran : step b _ with
    | error fault => rfl
    | ok next => exact ih (keeps _ _ _ _ start first ran)

end Loops

variable {F : Type}

/-- Every entry defines variables of the tape, by variables below all that it defines. -/
def Tape.InOrder (t : Tape F) : Prop := ∀ e ∈ t.entries, ∃ low, e.Within low t.size.toNat

instance Entry.decidableWithin (low high : Nat) : (e : Entry F) → Decidable (e.Within low high)
  | .linear result terms => inferInstanceAs (Decidable
      (low ≤ result.toNat ∧ result.toNat < high ∧ ∀ term ∈ terms, term.1.toNat < low))
  | .node n => inferInstanceAs (Decidable
      (low ≤ n.firstOutput.toNat ∧ n.firstOutput.toNat + n.outputs ≤ high ∧
        ∀ p ∈ n.params, p = Index.constant ∨ p.toNat < low))

theorem Entry.Within.mono {e : Entry F} {low high above : Nat} (within : e.Within low high)
    (more : high ≤ above) : e.Within low above := by
  cases e with
  | linear result terms => exact ⟨within.1, within.2.1.trans_le more, within.2.2⟩
  | node n => exact ⟨within.1, within.2.1.trans more, within.2.2⟩

/-- A recorded tape is in order. -/
theorem Tape.Recorded.inOrder {t : Tape F} {history : List (Record F)}
    (recorded : t.Recorded history) : t.InOrder := by
  induction recorded with
  | blank => exact fun e member => (nomatch member)
  | @gain t next history record before now ih =>
    have grows : t.size.toNat ≤ next.size.toNat := now.size_eq ▸ Nat.le_add_right ..
    intro e member
    rw [now.entries_eq before.stored] at member
    rcases List.mem_append.mp member with old | new
    · obtain ⟨low, within⟩ := ih e old
      exact ⟨low, within.mono grows⟩
    · exact ⟨_, now.within e new⟩

/-! ## Every place exists -/

section Places

variable {size : Nat} {adjoints : Array F}

private theorem size_clearFrom [Zero F] (adjoints : Array F) (first count : Nat) :
    (clearFrom adjoints first count).size = adjoints.size := by
  unfold clearFrom
  induction List.range count generalizing adjoints with
  | nil => rfl
  | cons i rest ih => rw [List.foldl_cons, ih, Array.size_setIfInBounds]

/-- What is handed to a place that exists, or to none, arrives. -/
theorem deposit_ok [Add F] {i : Index} (fits : Fits adjoints i) (amount : F) :
    ∃ next, deposit adjoints i amount = .ok next ∧ next.size = adjoints.size := by
  unfold deposit
  split_ifs with fixed
  · exact ⟨adjoints, rfl, rfl⟩
  · rw [accumulate, dif_pos (fits.resolve_left fixed)]
    exact ⟨_, rfl, Array.size_set ..⟩

variable [Zero F] [Add F] [Mul F] [BEq F]

theorem Node.propagateRow_ok (n : Node F) (row : List F) {output : Nat}
    (bound : output < adjoints.size) (fits : ∀ p ∈ n.params, Fits adjoints p) :
    ∃ next, n.propagateRow adjoints row output = .ok next ∧ next.size = adjoints.size := by
  simp only [propagateRow, Array.getElem?_eq_getElem bound, fetch, pure_bind]
  split_ifs
  · exact ⟨adjoints, rfl, rfl⟩
  · refine foldlM_keeps (fun term member held same => ?_) rfl
    have known := fits term.1 (List.of_mem_zip member).1
    rw [Fits, ← same] at known
    obtain ⟨next, handed, kept⟩ := deposit_ok known (adjoints[output] * term.2)
    exact ⟨next, handed, kept.trans same⟩

/-- An entry that is within the adjoints hands them on. -/
theorem Entry.Within.propagate_ok {e : Entry F} {low : Nat} (within : e.Within low adjoints.size) :
    ∃ next, e.propagate adjoints = .ok next ∧ next.size = adjoints.size := by
  cases e with
  | linear result terms =>
    obtain ⟨after, inside, operands⟩ := within
    simp only [propagate, Array.getElem?_eq_getElem inside, fetch, pure_bind]
    split_ifs
    · exact ⟨adjoints, rfl, rfl⟩
    · refine foldlM_keeps (P := fun held : Array F => held.size = adjoints.size)
        (fun term member held same => ?_) Array.size_setIfInBounds
      have bound : term.1.toNat < held.size := by
        have := operands term member
        omega
      rw [accumulate, dif_pos bound]
      exact ⟨_, rfl, (Array.size_set ..).trans same⟩
  | node n =>
    obtain ⟨start, stop, operands⟩ := within
    simp only [propagate, Node.propagate, mapM_fetch stop, pure_bind]
    split_ifs
    · exact ⟨adjoints, rfl, rfl⟩
    · have rows : ∀ row ∈ n.sensitivity.zipIdx, ∀ held : Array F, held.size = adjoints.size →
          ∃ next, n.propagateRow held row.1 (n.firstOutput.toNat + row.2) = .ok next ∧
            next.size = adjoints.size := by
        intro row member held same
        have inside : row.2 < n.outputs := List.snd_lt_of_mem_zipIdx member
        have output : n.firstOutput.toNat + row.2 < held.size := by omega
        have fits : ∀ p ∈ n.params, Fits held p := fun p listed =>
          (operands p listed).imp id fun below => by omega
        obtain ⟨next, handed, kept⟩ := n.propagateRow_ok row.1 output fits
        exact ⟨next, handed, kept.trans same⟩
      obtain ⟨middle, handed, same⟩ := foldlM_keeps rows rfl
      refine ⟨clearFrom middle n.firstOutput.toNat n.outputs, ?_, (size_clearFrom ..).trans same⟩
      rw [handed]
      rfl

omit [Mul F] [BEq F] in
/-- Seeds at known places are sown. -/
theorem Tape.seed_ok (t : Tape F) {seeds : List (Index × F)}
    (known : ∀ seed ∈ seeds, t.Knows seed.1) :
    ∃ adjoints, t.seed seeds = .ok adjoints ∧ adjoints.size = t.size.toNat := by
  refine foldlM_keeps (fun seed member held same => ?_) Array.size_replicate
  have fits : Fits held seed.1 := (known seed member).imp id fun below =>
    same.symm ▸ UInt32.lt_iff_toNat_lt.mp below
  obtain ⟨next, sown, kept⟩ := deposit_ok fits seed.2
  exact ⟨next, sown, kept.trans same⟩

omit [Mul F] [BEq F] in
/-- What is sown, wherever, gives one adjoint for each variable. -/
theorem Tape.size_of_seed {t : Tape F} {seeds : List (Index × F)}
    (sown : t.seed seeds = .ok adjoints) : adjoints.size = t.size.toNat := by
  refine foldlM_preserves (P := fun held : Array F => held.size = t.size.toNat)
    (fun seed _ held next same handed => ?_) Array.size_replicate sown
  simp only [deposit, accumulate] at handed
  split_ifs at handed
  · cases handed
    exact same
  · cases handed
    exact (Array.size_set ..).trans same

/-- A sweep over a tape in order, from seeds at known places, gives one adjoint for each variable.
-/
theorem Tape.InOrder.sweep_ok {t : Tape F} (ordered : t.InOrder) {seeds : List (Index × F)}
    (known : ∀ seed ∈ seeds, t.Knows seed.1) :
    ∃ adjoints, t.sweep seeds = .ok adjoints ∧ adjoints.size = t.size.toNat := by
  obtain ⟨start, seeded, size⟩ := t.seed_ok known
  rw [sweep, seeded]
  refine foldlM_keeps (fun e member held same => ?_) size
  obtain ⟨low, within⟩ := ordered e (List.mem_reverse.mp member)
  obtain ⟨next, handed, kept⟩ := (same ▸ within : e.Within low held.size).propagate_ok
  exact ⟨next, handed, kept.trans same⟩

end Places

end ImplicitDiff
