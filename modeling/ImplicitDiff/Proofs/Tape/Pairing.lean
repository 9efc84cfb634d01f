import Mathlib.Algebra.BigOperators.Ring.Finset
import Mathlib.Algebra.BigOperators.Pi
import ImplicitDiff.Proofs.Effects
import ImplicitDiff.Proofs.Tape.History
import ImplicitDiff.Tape.Sweep

/-! # Adjoints paired with tangents

Adjoints are a linear form: they assign to tangents of all variables the sum of the products. What
the sweep does to them is therefore said once, by how this form changes, for all tangents at a time;
a single adjoint is the value of the form at a unit tangent.
-/

namespace ImplicitDiff

variable {F : Type}

/-- The adjoint at a place, zero where there is none. -/
def adjointAt [Zero F] (adjoints : Array F) (k : Nat) : F := adjoints[k]?.getD 0

theorem adjointAt_of_lt [Zero F] {adjoints : Array F} {k : Nat} (bound : k < adjoints.size) :
    adjoints[k]? = some (adjointAt adjoints k) := by
  simp [adjointAt, bound]

/-- The adjoints of places in a row, read all at once. -/
theorem mapM_fetch [Zero F] {adjoints : Array F} {first count : Nat}
    (bound : first + count ≤ adjoints.size) :
    (List.range count).mapM (fun i => fetch adjoints[first + i]?) =
      (pure ((List.range count).map fun i => adjointAt adjoints (first + i)) :
        Except Fault (List F)) := by
  refine mapM_eq_pure fun i member => ?_
  have inside := List.mem_range.mp member
  rw [adjointAt_of_lt (by omega)]
  rfl

private theorem adjointAt_set [Zero F] (adjoints : Array F) (i : Nat) (a : F)
    (bound : i < adjoints.size) (k : Nat) :
    adjointAt (adjoints.set i a) k = if k = i then a else adjointAt adjoints k := by
  simp only [adjointAt, Array.getElem?_set, eq_comm (a := k)]
  split_ifs <;> rfl

section Pairing

variable [CommRing F]

/-- The sum of the tangents, each times its adjoint. -/
def pairing (adjoints : Array F) (tangents : Nat → F) : F :=
  ∑ k ∈ Finset.range adjoints.size, adjointAt adjoints k * tangents k

/-- The sum of the tangents of the operands, each times its multiplier. Constants do not vary. -/
def weigh (tangents : Nat → F) (terms : List (Index × F)) : F :=
  (terms.map fun (i, m) => if i = Index.constant then 0 else m * tangents i.toNat).sum

theorem weigh_cons (tangents : Nat → F) (term : Index × F) (terms : List (Index × F)) :
    weigh tangents (term :: terms) = weigh tangents [term] + weigh tangents terms := by
  simp [weigh]

/-- Leaving the constants out changes nothing. -/
@[simp] theorem weigh_filter (tangents : Nat → F) (terms : List (Index × F)) :
    weigh tangents (terms.filter fun (i, _) => i != Index.constant) = weigh tangents terms := by
  induction terms with
  | nil => rfl
  | cons term rest ih =>
    rw [weigh_cons tangents term, ← ih, List.filter_cons]
    split_ifs with varies
    · exact weigh_cons ..
    · simp_all [weigh]

/-- Only the tangents of the operands count. -/
theorem weigh_congr {tangents others : Nat → F} {terms : List (Index × F)}
    (agree : ∀ term ∈ terms, term.1 ≠ Index.constant →
      tangents term.1.toNat = others term.1.toNat) :
    weigh tangents terms = weigh others terms := by
  unfold weigh
  congr 1
  apply List.map_congr_left
  rintro ⟨i, m⟩ member
  dsimp only
  split_ifs with fixed
  · rfl
  · rw [agree (i, m) member fixed]

theorem weigh_zero {tangents : Nat → F} {terms : List (Index × F)}
    (still : ∀ term ∈ terms, term.1 ≠ Index.constant → tangents term.1.toNat = 0) :
    weigh tangents terms = 0 := by
  have same : weigh tangents terms = weigh (fun _ => 0) terms := weigh_congr still
  rw [same]
  simp [weigh]

/-- A unit tangent above all operands counts for nothing. -/
theorem weigh_single {terms : List (Index × F)} {low k : Nat}
    (below : ∀ term ∈ terms, term.1 = Index.constant ∨ term.1.toNat < low) (above : low ≤ k) :
    weigh (Pi.single k 1) terms = 0 := by
  apply weigh_zero
  intro term member varies
  have lower := (below term member).resolve_left varies
  exact Pi.single_eq_of_ne (by omega) 1

theorem pairing_set (adjoints : Array F) (i : Nat) (a : F) (bound : i < adjoints.size)
    (tangents : Nat → F) :
    pairing (adjoints.set i a) tangents =
      pairing adjoints tangents + (a - adjointAt adjoints i) * tangents i := by
  have change (k : Nat) : adjointAt (adjoints.set i a) k * tangents k =
      adjointAt adjoints k * tangents k +
        if k = i then (a - adjointAt adjoints i) * tangents i else 0 := by
    rw [adjointAt_set]
    split_ifs with here
    · subst here
      ring
    · ring
  simp only [pairing, Array.size_set, change, Finset.sum_add_distrib, Finset.sum_ite_eq',
    Finset.mem_range, bound, if_true]

theorem pairing_setIfInBounds (adjoints : Array F) (i : Nat) (a : F) (bound : i < adjoints.size)
    (tangents : Nat → F) :
    pairing (adjoints.setIfInBounds i a) tangents =
      pairing adjoints tangents + (a - adjointAt adjoints i) * tangents i := by
  rw [Array.setIfInBounds, dif_pos bound, pairing_set]

theorem pairing_single {adjoints : Array F} {k : Nat} (bound : k < adjoints.size) :
    pairing adjoints (Pi.single k 1) = adjointAt adjoints k := by
  simp [pairing, Pi.single_apply, bound]

/-- All adjoints have moved by a change that the pairing with tangents sees as `change`. -/
structure Shifted (adjoints next : Array F) (change : (Nat → F) → F) : Prop where
  size_eq : next.size = adjoints.size
  pairing_eq : ∀ tangents, pairing next tangents = pairing adjoints tangents + change tangents

namespace Shifted

variable {adjoints next last : Array F} {change more : (Nat → F) → F}

theorem of_eq (same : ∀ tangents, change tangents = 0) : Shifted adjoints adjoints change :=
  ⟨rfl, fun tangents => by rw [same, add_zero]⟩

theorem trans (first : Shifted adjoints next change) (second : Shifted next last more) :
    Shifted adjoints last fun tangents => change tangents + more tangents :=
  ⟨second.size_eq.trans first.size_eq, fun tangents => by
    rw [second.pairing_eq, first.pairing_eq, add_assoc]⟩

theorem congr (shifted : Shifted adjoints next change)
    (same : ∀ tangents, change tangents = more tangents) : Shifted adjoints next more :=
  ⟨shifted.size_eq, fun tangents => by rw [shifted.pairing_eq, same]⟩

theorem adjointAt_eq (shifted : Shifted adjoints next change) {k : Nat}
    (bound : k < adjoints.size) :
    adjointAt next k = adjointAt adjoints k + change (Pi.single k 1) := by
  rw [← pairing_single bound, ← pairing_single (shifted.size_eq ▸ bound), shifted.pairing_eq]

end Shifted

end Pairing

end ImplicitDiff
