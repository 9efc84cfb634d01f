import ImplicitDiff.Proofs.Tape.Pairing

/-! # Tangents along a history

The tangents of the independent variables may be chosen; those of all others follow, in the order of
their places. Variables that come later change nothing about earlier ones.
-/

namespace ImplicitDiff

variable {F : Type}

/-- Whether the variable is independent. -/
def Origin.isFree : Origin F → Bool
  | .free => true
  | .combination _ => false

/-- The places of the independent variables. -/
def freePlaces (layout : List (Origin F)) : Finset Nat :=
  (Finset.range layout.length).filter fun k => (layout[k]?.map Origin.isFree) = some true

theorem mem_freePlaces {layout : List (Origin F)} {k : Nat} :
    k ∈ freePlaces layout ↔ layout[k]? = some .free := by
  simp only [freePlaces, Finset.mem_filter, Finset.mem_range, Option.map_eq_some_iff]
  constructor
  · rintro ⟨-, origin, found, free⟩
    cases origin with
    | free => exact found
    | combination terms => cases free
  · intro found
    exact ⟨(List.getElem?_eq_some_iff.mp found).1, .free, found, rfl⟩

/-- Every variable combines constants and variables before it. -/
def Grounded (layout : List (Origin F)) : Prop :=
  ∀ (k : Nat) (terms : List (Index × F)), layout[k]? = some (.combination terms) →
    ∀ term ∈ terms, term.1 = Index.constant ∨ term.1.toNat < k

variable [CommRing F]

/-- The tangent of a variable after variables with known tangents. -/
def Origin.tangent (free : Nat → F) (known : List F) : Origin F → F
  | .free => free known.length
  | .combination terms => weigh (fun k => known.getD k 0) terms

/-- The tangents of all variables, where independent ones have those that `free` gives to their
places. -/
def tangents (free : Nat → F) (layout : List (Origin F)) : List F :=
  layout.foldl (fun known origin => known ++ [origin.tangent free known]) []

/-- The tangent of the variable at a place, zero where there is none. -/
def tangentAt (free : Nat → F) (layout : List (Origin F)) (k : Nat) : F :=
  (tangents free layout).getD k 0

variable (free : Nat → F)

theorem tangents_concat (layout : List (Origin F)) (origin : Origin F) :
    tangents free (layout ++ [origin]) =
      tangents free layout ++ [origin.tangent free (tangents free layout)] := by
  simp [tangents]

@[simp] theorem length_tangents (layout : List (Origin F)) :
    (tangents free layout).length = layout.length := by
  induction layout using List.reverseRecOn with
  | nil => rfl
  | append_singleton layout origin ih => simp [tangents_concat, ih]

theorem tangentAt_append (layout more : List (Origin F)) {k : Nat}
    (bound : k < layout.length) :
    tangentAt free (layout ++ more) k = tangentAt free layout k := by
  induction more using List.reverseRecOn with
  | nil => rw [List.append_nil]
  | append_singleton more origin ih =>
    rw [← List.append_assoc, ← ih, tangentAt, tangentAt, tangents_concat]
    have inside : k < (tangents free (layout ++ more)).length := by
      rw [length_tangents, List.length_append]
      omega
    simp [List.getD_eq_getElem?_getD, List.getElem?_append_left inside]

theorem tangentAt_concat (layout : List (Origin F)) (origin : Origin F) :
    tangentAt free (layout ++ [origin]) layout.length =
      origin.tangent free (tangents free layout) := by
  rw [tangentAt, tangents_concat, ← length_tangents free layout]
  simp [List.getD_eq_getElem?_getD]

/-- The tangent of a variable, in terms of those before it. -/
theorem tangentAt_eq {layout : List (Origin F)} {k : Nat} {origin : Origin F}
    (found : layout[k]? = some origin) :
    tangentAt free layout k = origin.tangent free (tangents free (layout.take k)) := by
  obtain ⟨bound, here⟩ := List.getElem?_eq_some_iff.mp found
  have length : (layout.take k).length = k := List.length_take_of_le bound.le
  have split : layout = layout.take k ++ [origin] ++ layout.drop (k + 1) := by
    rw [← here]
    simp
  have last := tangentAt_concat free (layout.take k) origin
  rw [length] at last
  conv_lhs => rw [split]
  rw [tangentAt_append, last]
  rw [List.length_append, length]
  exact Nat.lt_succ_self k

theorem tangentAt_free {layout : List (Origin F)} {k : Nat}
    (found : layout[k]? = some .free) : tangentAt free layout k = free k := by
  obtain ⟨bound, -⟩ := List.getElem?_eq_some_iff.mp found
  rw [tangentAt_eq free found, Origin.tangent, length_tangents, List.length_take_of_le bound.le]

/-- A variable that is not independent moves as its operands say. -/
theorem tangentAt_combination {layout : List (Origin F)} (grounded : Grounded layout)
    {k : Nat} {terms : List (Index × F)} (found : layout[k]? = some (.combination terms)) :
    tangentAt free layout k = weigh (tangentAt free layout) terms := by
  obtain ⟨bound, -⟩ := List.getElem?_eq_some_iff.mp found
  rw [tangentAt_eq free found, Origin.tangent]
  apply weigh_congr
  intro term member varies
  have below := (grounded k terms found term member).resolve_left varies
  change tangentAt free (layout.take k) term.1.toNat = tangentAt free layout term.1.toNat
  conv_rhs => rw [← List.take_append_drop k layout]
  rw [tangentAt_append free _ _ (by rw [List.length_take_of_le bound.le]; exact below)]

end ImplicitDiff
