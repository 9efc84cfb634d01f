import Mathlib.Data.List.GetD
import ImplicitDiff.Proofs.Tape.Adjoint

/-! # Tapes with fewer variables

A computation that holds some of its inputs constant leaves a shorter tape: the variables that
depend on nothing else are missing, and the others have other places. The order of what is left is
the same, and what is missing depends on nothing that is left. So the sweeps over both tapes do the
same to the variables that both have, operation by operation, in any arithmetic.
-/

namespace ImplicitDiff

variable {F : Type}

/-- The place that a variable of a longer tape has on a shorter one. Constants, and variables that
the shorter tape lacks, are constants there. -/
def counterpart (counterparts : List Index) (i : Index) : Index :=
  counterparts.getD i.toNat Index.constant

/-- The operands as they stand on the shorter tape. -/
def thin (counterparts : List Index) (terms : List (Index × F)) : List (Index × F) :=
  terms.map fun (i, m) => (counterpart counterparts i, m)

/-- No two places hold the same counterpart. -/
def Distinct (counterparts : List Index) : Prop :=
  ∀ ⦃k l : Nat⦄ ⦃i : Index⦄, counterparts[k]? = some i → counterparts[l]? = some i →
    i ≠ Index.constant → k = l

theorem getElem?_concat_iff {α : Type} {items : List α} {last a : α} {k : Nat} :
    (items ++ [last])[k]? = some a ↔ items[k]? = some a ∨ k = items.length ∧ last = a := by
  rw [List.getElem?_append]
  split_ifs with old
  · rw [or_iff_left fun ⟨new, _⟩ => old.ne new]
  · rw [List.getElem?_eq_none (not_lt.mp old), List.getElem?_singleton]
    simp only [reduceCtorEq, false_or]
    split_ifs with new
    · rw [Option.some_inj, and_iff_right]
      omega
    · exact iff_of_false (by simp) fun ⟨here, _⟩ => new (by omega)

/-- The first tape has some of the variables of the second one, in the same order. The list holds
the place of each variable of the second tape on the first one, and the mark of a constant where it
has none. A variable without a counterpart depends only on such variables. -/
inductive Thinned : Tape F → Tape F → List Index → Prop
  | blank : Thinned {} {} []
  | keepInput {few few' many many' : Tape F} {counterparts : List Index} :
      Thinned few many counterparts → few.Gains .independent few' →
      many.Gains .independent many' → Thinned few' many' (counterparts ++ [few.size])
  | dropInput {few many many' : Tape F} {counterparts : List Index} :
      Thinned few many counterparts → many.Gains .independent many' →
      Thinned few many' (counterparts ++ [Index.constant])
  | keep {few few' many many' : Tape F} {counterparts : List Index} {terms : List (Index × F)} :
      Thinned few many counterparts → few.Gains (.linear (thin counterparts terms)) few' →
      many.Gains (.linear terms) many' → Thinned few' many' (counterparts ++ [few.size])
  | drop {few many many' : Tape F} {counterparts : List Index} {terms : List (Index × F)} :
      Thinned few many counterparts →
      (∀ term ∈ terms, counterpart counterparts term.1 = Index.constant) →
      many.Gains (.linear terms) many' → Thinned few many' (counterparts ++ [Index.constant])

namespace Thinned

variable {few many : Tape F} {counterparts : List Index}

theorem recorded (thinned : Thinned few many counterparts) :
    (∃ history, few.Recorded history) ∧ ∃ history, many.Recorded history := by
  induction thinned with
  | blank => exact ⟨⟨_, .blank⟩, _, .blank⟩
  | keepInput _ here there ih | keep _ here there ih =>
    obtain ⟨⟨_, before⟩, _, past⟩ := ih
    exact ⟨⟨_, before.gain here⟩, _, past.gain there⟩
  | dropInput _ there ih | drop _ _ there ih =>
    obtain ⟨before, _, past⟩ := ih
    exact ⟨before, _, past.gain there⟩

/-- There is one counterpart for each variable of the longer tape. -/
theorem length_eq (thinned : Thinned few many counterparts) :
    counterparts.length = many.size.toNat := by
  induction thinned with
  | blank => rfl
  | keepInput _ _ there ih | keep _ _ there ih | dropInput _ there ih | drop _ _ there ih =>
    rw [List.length_append, there.size_eq, ih]
    rfl

theorem length_lt (thinned : Thinned few many counterparts) : counterparts.length < 2 ^ 32 := by
  rw [thinned.length_eq]
  exact UInt32.toNat_lt_size _

/-- The shorter tape has no more variables. -/
theorem size_le (thinned : Thinned few many counterparts) :
    few.size.toNat ≤ many.size.toNat := by
  induction thinned with
  | blank => exact le_rfl
  | keepInput _ here there ih | keep _ here there ih =>
    rw [here.size_eq, there.size_eq]
    exact Nat.add_le_add_right ih 1
  | dropInput _ there ih | drop _ _ there ih =>
    rw [there.size_eq]
    exact Nat.le_add_right_of_le ih

/-- A counterpart is a place on the shorter tape. -/
theorem lt_size (thinned : Thinned few many counterparts) {k : Nat} {i : Index}
    (found : counterparts[k]? = some i) (kept : i ≠ Index.constant) :
    i.toNat < few.size.toNat := by
  induction thinned generalizing k with
  | blank => cases found
  | keepInput _ here _ ih | keep _ here _ ih =>
    rw [here.size_eq]
    obtain old | ⟨-, rfl⟩ := getElem?_concat_iff.mp found
    · exact (ih old).trans_le (Nat.le_add_right ..)
    · exact Nat.lt_succ_self _
  | dropInput _ _ ih | drop _ _ _ ih =>
    obtain old | ⟨-, rfl⟩ := getElem?_concat_iff.mp found
    · exact ih old
    · exact absurd rfl kept

/-- No two variables have the same counterpart. -/
theorem distinct (thinned : Thinned few many counterparts) : Distinct counterparts := by
  intro k l i found again kept
  induction thinned generalizing k l with
  | blank => cases found
  | keepInput before _ _ ih | keep before _ _ ih =>
    obtain old | ⟨rfl, rfl⟩ := getElem?_concat_iff.mp found <;>
      obtain other | ⟨rfl, same⟩ := getElem?_concat_iff.mp again
    · exact ih old other
    · exact absurd (before.lt_size old kept) (same ▸ lt_irrefl _)
    · exact absurd (before.lt_size other kept) (lt_irrefl _)
    · rfl
  | dropInput _ _ ih | drop _ _ _ ih =>
    obtain old | ⟨-, rfl⟩ := getElem?_concat_iff.mp found
    · obtain other | ⟨-, rfl⟩ := getElem?_concat_iff.mp again
      · exact ih old other
      · exact absurd rfl kept
    · exact absurd rfl kept

end Thinned

section Counterpart

variable {counterparts more : List Index} {i : Index}

theorem counterpart_constant (short : counterparts.length < 2 ^ 32) :
    counterpart counterparts Index.constant = Index.constant := by
  refine List.getD_eq_default _ _ ?_
  change counterparts.length ≤ 2 ^ 32 - 1
  omega

private theorem ne_constant_of_lt (short : counterparts.length < 2 ^ 32)
    (below : i.toNat < counterparts.length) : i ≠ Index.constant := by
  rintro rfl
  change 2 ^ 32 - 1 < counterparts.length at below
  omega

/-- What is known of a variable is not changed by later ones. -/
theorem counterpart_append (short : (counterparts ++ more).length < 2 ^ 32)
    (known : i = Index.constant ∨ i.toNat < counterparts.length) :
    counterpart (counterparts ++ more) i = counterpart counterparts i := by
  obtain rfl | below := known
  · have shorter : counterparts.length < 2 ^ 32 := by
      rw [List.length_append] at short
      omega
    rw [counterpart_constant short, counterpart_constant shorter]
  · exact List.getD_append _ _ _ _ below

end Counterpart

theorem accumulate_eq [Add F] {adjoints : Array F} {i : Index} {a : F}
    (held : adjoints[i.toNat]? = some a) (amount : F) :
    accumulate adjoints i amount = .ok (adjoints.setIfInBounds i.toNat (a + amount)) := by
  obtain ⟨bound, rfl⟩ := Array.getElem?_eq_some_iff.mp held
  rw [accumulate, dif_pos bound, Array.setIfInBounds, dif_pos bound]

/-! ## Adjoints side by side -/

/-- Adjoints of the variables of two tapes that are the same for every variable that both have. -/
structure Agree (counterparts : List Index) (left right : Array F) : Prop where
  distinct : Distinct counterparts
  short : counterparts.length < 2 ^ 32
  covers : counterparts.length ≤ right.size
  same {k : Nat} {i : Index} : counterparts[k]? = some i → i ≠ Index.constant →
    ∃ a, left[i.toNat]? = some a ∧ right[k]? = some a

namespace Agree

variable {counterparts : List Index} {left right : Array F}

/-- What happens to a variable that only one tape has does not show on the other. -/
theorem set_dropped (agree : Agree counterparts left right) {k : Nat}
    (dropped : counterparts[k]? = some Index.constant) (a : F) :
    Agree counterparts left (right.setIfInBounds k a) where
  distinct := agree.distinct
  short := agree.short
  covers := by
    rw [Array.size_setIfInBounds]
    exact agree.covers
  same {l i} found kept := by
    have apart : k ≠ l := by
      rintro rfl
      exact kept (Option.some.inj (found.symm.trans dropped))
    rw [Array.getElem?_setIfInBounds_ne apart]
    exact agree.same found kept

/-- The same number is written for a variable that both tapes have. -/
theorem set_kept (agree : Agree counterparts left right) {k : Nat} {i : Index}
    (kept : counterparts[k]? = some i) (varies : i ≠ Index.constant) (a : F) :
    Agree counterparts (left.setIfInBounds i.toNat a) (right.setIfInBounds k a) where
  distinct := agree.distinct
  short := agree.short
  covers := by
    rw [Array.size_setIfInBounds]
    exact agree.covers
  same {l j} found other := by
    obtain ⟨b, here, there⟩ := agree.same found other
    obtain ⟨inside, -⟩ := Array.getElem?_eq_some_iff.mp here
    obtain ⟨bound, -⟩ := Array.getElem?_eq_some_iff.mp there
    by_cases same : k = l
    · subst same
      obtain rfl := Option.some.inj (kept.symm.trans found)
      exact ⟨a, Array.getElem?_setIfInBounds_self_of_lt inside,
        Array.getElem?_setIfInBounds_self_of_lt bound⟩
    · have apart : i.toNat ≠ j.toNat := fun equal =>
        same (agree.distinct kept (UInt32.toNat_inj.mp equal ▸ found) varies)
      rw [Array.getElem?_setIfInBounds_ne apart, Array.getElem?_setIfInBounds_ne same]
      exact ⟨b, here, there⟩

variable [Add F]

/-- An amount for a variable goes to its counterpart, if it has one. -/
theorem deposit (agree : Agree counterparts left right) {i : Index}
    (known : i = Index.constant ∨ i.toNat < counterparts.length) (amount : F) :
    ∃ left' right', ImplicitDiff.deposit left (counterpart counterparts i) amount = .ok left' ∧
      ImplicitDiff.deposit right i amount = .ok right' ∧ Agree counterparts left' right' := by
  obtain rfl | below := known
  · have none : counterpart counterparts Index.constant = Index.constant :=
      counterpart_constant agree.short
    exact ⟨left, right, by rw [none]; exact if_pos rfl, if_pos rfl, agree⟩
  · have varies : i ≠ Index.constant := ne_constant_of_lt agree.short below
    have found : counterparts[i.toNat]? = some (counterpart counterparts i) := by
      rw [counterpart, List.getD_eq_getElem _ _ below, List.getElem?_eq_getElem below]
    have there := Array.getElem?_eq_getElem (below.trans_le agree.covers)
    by_cases dropped : counterpart counterparts i = Index.constant
    · rw [dropped] at found ⊢
      refine ⟨left, _, if_pos rfl, (if_neg varies).trans (accumulate_eq there amount), ?_⟩
      exact agree.set_dropped found _
    · obtain ⟨a, held, same⟩ := agree.same found dropped
      refine ⟨_, _, (if_neg dropped).trans (accumulate_eq held amount),
        (if_neg varies).trans (accumulate_eq same amount), ?_⟩
      exact agree.set_kept found dropped _

/-- Amounts for several variables go to their counterparts. -/
theorem foldlM_deposit (agree : Agree counterparts left right) (amount : F → F)
    {terms : List (Index × F)}
    (known : ∀ term ∈ terms, term.1 = Index.constant ∨ term.1.toNat < counterparts.length) :
    ∃ left' right',
      (thin counterparts terms).foldlM
        (fun adjoints (i, m) => ImplicitDiff.deposit adjoints i (amount m)) left = .ok left' ∧
      terms.foldlM
        (fun adjoints (i, m) => ImplicitDiff.deposit adjoints i (amount m)) right = .ok right' ∧
      Agree counterparts left' right' := by
  induction terms generalizing left right with
  | nil => exact ⟨left, right, rfl, rfl, agree⟩
  | cons term rest ih =>
    rw [List.forall_mem_cons] at known
    obtain ⟨left', right', here, there, after⟩ := agree.deposit known.1 (amount term.2)
    obtain ⟨left'', right'', others, more, last⟩ := ih after known.2
    refine ⟨left'', right'', ?_, ?_, last⟩
    · rw [thin, List.map_cons, List.foldlM_cons]
      dsimp only
      rw [here]
      exact others
    · rw [List.foldlM_cons]
      dsimp only
      rw [there]
      exact more

end Agree

section Operands

variable [Add F]

/-- Constants take no share, so it does not matter whether they are left out. -/
theorem foldlM_deposit_filter (amount : F → F) (terms : List (Index × F)) (adjoints : Array F) :
    (terms.filter fun (i, _) => i != Index.constant).foldlM
      (fun adjoints (i, m) => deposit adjoints i (amount m)) adjoints =
    terms.foldlM (fun adjoints (i, m) => deposit adjoints i (amount m)) adjoints := by
  induction terms generalizing adjoints with
  | nil => rfl
  | cons term rest ih =>
    obtain ⟨i, m⟩ := term
    rw [List.filter_cons, List.foldlM_cons]
    dsimp only
    split_ifs with tracked
    · rw [List.foldlM_cons]
      exact congrArg _ (funext ih)
    · rw [ih, deposit, if_pos (by simpa using tracked)]
      rfl

/-- The operands of a statement are no constants, so each takes its share. -/
theorem foldlM_accumulate_filter (amount : F → F) (terms : List (Index × F)) (adjoints : Array F) :
    (terms.filter fun (i, _) => i != Index.constant).foldlM
      (fun adjoints (i, m) => accumulate adjoints i (amount m)) adjoints =
    terms.foldlM (fun adjoints (i, m) => deposit adjoints i (amount m)) adjoints := by
  rw [← foldlM_deposit_filter]
  generalize filtered : terms.filter (fun (i, _) => i != Index.constant) = tracked
  have varies : ∀ term ∈ tracked, term.1 ≠ Index.constant := fun term member => by
    rw [← filtered] at member
    exact bne_iff_ne.mp (List.mem_filter.mp member).2
  clear filtered
  induction tracked generalizing adjoints with
  | nil => rfl
  | cons term rest ih =>
    rw [List.forall_mem_cons] at varies
    rw [List.foldlM_cons, List.foldlM_cons]
    dsimp only
    rw [deposit, if_neg varies.1]
    exact congrArg _ (funext fun next => ih next varies.2)

end Operands

private theorem thin_append {counterparts more : List Index}
    (short : (counterparts ++ more).length < 2 ^ 32) {terms : List (Index × F)}
    (known : ∀ term ∈ terms, term.1 = Index.constant ∨ term.1.toNat < counterparts.length) :
    thin (counterparts ++ more) terms = thin counterparts terms :=
  List.map_congr_left fun term member =>
    Prod.ext (counterpart_append short (known term member)) rfl

/-- The operands are constants on the shorter tape if it lacks them all. -/
theorem thin_constant_iff {counterparts : List Index} {terms : List (Index × F)} :
    (∀ term ∈ thin counterparts terms, term.1 = Index.constant) ↔
      ∀ term ∈ terms, counterpart counterparts term.1 = Index.constant :=
  List.forall_mem_map

/-- Operands without counterparts leave nothing to record. -/
theorem filter_thin_eq_nil {counterparts : List Index} {terms : List (Index × F)}
    (dropped : ∀ term ∈ terms, counterpart counterparts term.1 = Index.constant) :
    (thin counterparts terms).filter (fun (i, _) => i != Index.constant) = [] := by
  rw [List.filter_eq_nil_iff]
  intro term member
  simp [thin_constant_iff.mpr dropped term member]

section Sweep

variable [Zero F] [Add F] [Mul F] [BEq F]

/-- What a statement does to the adjoints: its operands take their shares, unless there are none. -/
theorem propagate_linear {adjoints : Array F} {i : Index} {a : F}
    (held : adjoints[i.toNat]? = some a) (terms : List (Index × F)) :
    Entry.propagate adjoints (.linear i (terms.filter fun (i, _) => i != Index.constant)) =
      if a == 0 then .ok adjoints
      else terms.foldlM (fun adjoints (i, m) => deposit adjoints i (m * a))
        (adjoints.setIfInBounds i.toNat 0) := by
  rw [← foldlM_accumulate_filter (· * a), Entry.propagate, held]
  rfl

namespace Agree

variable {counterparts : List Index} {left right : Array F} {place : Index}
  {terms : List (Index × F)}

/-- A statement that both tapes have does the same to both. -/
theorem propagate_kept (agree : Agree counterparts left right) {i : Index}
    (here : counterparts[place.toNat]? = some i) (varies : i ≠ Index.constant)
    (known : ∀ term ∈ terms, term.1 = Index.constant ∨ term.1.toNat < counterparts.length) :
    ∃ left' right',
      Entry.propagate left (.linear i
        ((thin counterparts terms).filter fun (i, _) => i != Index.constant)) = .ok left' ∧
      Entry.propagate right (.linear place
        (terms.filter fun (i, _) => i != Index.constant)) = .ok right' ∧
      Agree counterparts left' right' := by
  obtain ⟨a, held, same⟩ := agree.same here varies
  rw [propagate_linear held, propagate_linear same]
  split_ifs with zero
  · exact ⟨left, right, rfl, rfl, agree⟩
  · exact (agree.set_kept here varies 0).foldlM_deposit (· * a) known

/-- A statement that the shorter tape lacks does nothing to what both have. -/
theorem propagate_dropped (agree : Agree counterparts left right)
    (here : counterparts[place.toNat]? = some Index.constant)
    (known : ∀ term ∈ terms, term.1 = Index.constant ∨ term.1.toNat < counterparts.length)
    (dropped : ∀ term ∈ terms, counterpart counterparts term.1 = Index.constant) :
    ∃ right', Entry.propagate right (.linear place
        (terms.filter fun (i, _) => i != Index.constant)) = .ok right' ∧
      Agree counterparts left right' := by
  obtain ⟨below, -⟩ := List.getElem?_eq_some_iff.mp here
  obtain ⟨a, there⟩ : ∃ a, right[place.toNat]? = some a :=
    ⟨_, Array.getElem?_eq_getElem (below.trans_le agree.covers)⟩
  rw [propagate_linear there]
  split_ifs with zero
  · exact ⟨right, rfl, agree⟩
  · obtain ⟨left', right', idle, went, after⟩ :=
      (agree.set_dropped here 0).foldlM_deposit (· * a) known
    have same := foldlM_deposit_filter (· * a) (thin counterparts terms) left
    rw [filter_thin_eq_nil dropped] at same
    cases same.trans idle
    exact ⟨right', went, after⟩

end Agree

omit [Zero F] [Add F] [Mul F] [BEq F] in
/-- What one tape records of known operands is within the list of counterparts. -/
theorem Thinned.known {few many next : Tape F} {counterparts : List Index}
    (thinned : Thinned few many counterparts) {terms : List (Index × F)}
    (gains : many.Gains (.linear terms) next) :
    ∀ term ∈ terms, term.1 = Index.constant ∨ term.1.toNat < counterparts.length := by
  intro term member
  refine (gains.knows _ (List.mem_map_of_mem member)).imp id fun below => ?_
  rw [thinned.length_eq]
  exact UInt32.lt_iff_toNat_lt.mp below

/-- The sweeps over both tapes do the same to the variables that both have. The later variables, of
which the tapes know nothing yet, are carried along for the induction. -/
theorem Thinned.sweep_agree {few many : Tape F} {counterparts : List Index}
    (thinned : Thinned few many counterparts) {more : List Index} {left right : Array F}
    (agree : Agree (counterparts ++ more) left right) :
    ∃ left' right', few.entries.reverse.foldlM Entry.propagate left = .ok left' ∧
      many.entries.reverse.foldlM Entry.propagate right = .ok right' ∧
      Agree (counterparts ++ more) left' right' := by
  induction thinned generalizing more left right with
  | blank => exact ⟨left, right, rfl, rfl, agree⟩
  | keepInput before here there ih =>
    obtain ⟨⟨_, fewer⟩, _, longer⟩ := before.recorded
    rw [here.entries_eq fewer.stored, there.entries_eq longer.stored]
    simp only [Record.entries, List.append_nil]
    rw [List.append_assoc] at agree ⊢
    exact ih agree
  | dropInput before there ih =>
    obtain ⟨-, _, longer⟩ := before.recorded
    rw [there.entries_eq longer.stored]
    simp only [Record.entries, List.append_nil]
    rw [List.append_assoc] at agree ⊢
    exact ih agree
  | @keep few few' many many' counterparts terms before here there ih =>
    obtain ⟨⟨_, fewer⟩, _, longer⟩ := before.recorded
    rw [List.append_assoc, List.singleton_append] at agree ⊢
    have varies : few.size ≠ Index.constant := by
      have room := few'.size.toNat_lt
      rw [here.size_eq] at room
      exact ne_constant_of_room room
    have place : (counterparts ++ few.size :: more)[many.size.toNat]? = some few.size := by
      rw [← before.length_eq, List.getElem?_append_right le_rfl, Nat.sub_self]
      rfl
    have known := before.known there
    have inside : ∀ term ∈ terms, term.1 = Index.constant ∨
        term.1.toNat < (counterparts ++ few.size :: more).length := fun term member =>
      (known term member).imp id fun below => below.trans_le (by simp)
    obtain ⟨left', right', first, second, after⟩ := agree.propagate_kept place varies inside
    rw [thin_append agree.short known] at first
    obtain ⟨left'', right'', others, rest, last⟩ := ih after
    refine ⟨left'', right'', ?_, ?_, last⟩
    · rw [here.entries_eq fewer.stored, Record.entries, List.reverse_concat, List.foldlM_cons,
        first]
      exact others
    · rw [there.entries_eq longer.stored, Record.entries, List.reverse_concat, List.foldlM_cons,
        second]
      exact rest
  | @drop few many many' counterparts terms before dropped there ih =>
    obtain ⟨-, _, longer⟩ := before.recorded
    rw [List.append_assoc, List.singleton_append] at agree ⊢
    have place : (counterparts ++ Index.constant :: more)[many.size.toNat]? =
        some Index.constant := by
      rw [← before.length_eq, List.getElem?_append_right le_rfl, Nat.sub_self]
      rfl
    have known := before.known there
    have inside : ∀ term ∈ terms, term.1 = Index.constant ∨
        term.1.toNat < (counterparts ++ Index.constant :: more).length := fun term member =>
      (known term member).imp id fun below => below.trans_le (by simp)
    have still : ∀ term ∈ terms,
        counterpart (counterparts ++ Index.constant :: more) term.1 = Index.constant :=
      fun term member =>
        (counterpart_append agree.short (known term member)).trans (dropped term member)
    obtain ⟨right', second, after⟩ := agree.propagate_dropped place inside still
    obtain ⟨left', right'', others, rest, last⟩ := ih after
    refine ⟨left', right'', others, ?_, last⟩
    rw [there.entries_eq longer.stored, Record.entries, List.reverse_concat, List.foldlM_cons,
      second]
    exact rest

omit [Add F] [Mul F] [BEq F] in
/-- Before any seed, all adjoints are zero. -/
theorem Thinned.agree_zero {few many : Tape F} {counterparts : List Index}
    (thinned : Thinned few many counterparts) :
    Agree counterparts (Array.replicate few.size.toNat (0 : F))
      (Array.replicate many.size.toNat 0) where
  distinct := thinned.distinct
  short := thinned.length_lt
  covers := by rw [thinned.length_eq, Array.size_replicate]
  same {k i} found kept := by
    obtain ⟨inside, -⟩ := List.getElem?_eq_some_iff.mp found
    rw [thinned.length_eq] at inside
    refine ⟨0, ?_, ?_⟩
    · rw [Array.getElem?_replicate, if_pos (thinned.lt_size found kept)]
    · rw [Array.getElem?_replicate, if_pos inside]

/-- Sweeps over both tapes from the same seeds succeed and give the same adjoints to the variables
that both have. Seeds of variables that the shorter tape lacks do not matter. -/
theorem Thinned.sweep_eq {few many : Tape F} {counterparts : List Index}
    (thinned : Thinned few many counterparts) {seeds : List (Index × F)}
    (known : ∀ seed ∈ seeds, many.Knows seed.1) :
    ∃ left right,
      few.sweep ((thin counterparts seeds).filter fun (i, _) => i != Index.constant) = .ok left ∧
      many.sweep (seeds.filter fun (i, _) => i != Index.constant) = .ok right ∧
      Agree counterparts left right := by
  have inside : ∀ seed ∈ seeds, seed.1 = Index.constant ∨ seed.1.toNat < counterparts.length := by
    rw [thinned.length_eq]
    exact fun seed member => (known seed member).imp id UInt32.lt_iff_toNat_lt.mp
  obtain ⟨left, right, here, there, agree⟩ := thinned.agree_zero.foldlM_deposit id inside
  have start : Agree (counterparts ++ []) left right := (List.append_nil counterparts).symm ▸ agree
  obtain ⟨left', right', first, second, swept⟩ := thinned.sweep_agree start
  rw [List.append_nil] at swept
  have seeded : few.seed ((thin counterparts seeds).filter fun (i, _) => i != Index.constant) =
      .ok left := (foldlM_deposit_filter id _ _).trans here
  have sown : many.seed (seeds.filter fun (i, _) => i != Index.constant) = .ok right :=
    (foldlM_deposit_filter id _ _).trans there
  refine ⟨left', right', ?_, ?_, swept⟩
  · rw [Tape.sweep, seeded]
    exact first
  · rw [Tape.sweep, sown]
    exact second

end Sweep

end ImplicitDiff
