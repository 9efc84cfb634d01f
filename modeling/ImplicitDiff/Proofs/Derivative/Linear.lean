import ImplicitDiff.Proofs.Derivative.Agreement

/-! # Tangents are linear in the direction

A run on dual numbers in any direction of two blocks of inputs has the tangents that the two blocks
of the Jacobian give. Nothing is proved of dual arithmetic for this: a recorded run stands between
the directions, and its sweep is one linear form for all of them.
-/

namespace ImplicitDiff

open scoped Matrix

variable {F : Type}

/-- A direction of `n` inputs, followed by a direction of those after them. -/
def joined (n : Nat) (a b : Nat → F) (k : Nat) : F := if k < n then a k else b (k - n)

theorem varied_congr {x : List F} {a b : Nat → F} (agree : ∀ k < x.length, a k = b k) :
    varied a x = varied b x := by
  apply List.ext_getElem
  · simp [varied]
  · intro k before _
    rw [varied, List.length_mapIdx] at before
    simp only [varied, List.getElem_mapIdx, agree k before]

private theorem varied_joined (a b : Nat → F) (x y : List F) :
    varied (joined x.length a b) (x ++ y) = varied a x ++ varied b y := by
  simp only [varied, List.mapIdx_append]
  congr 1
  · refine varied_congr fun k inside => ?_
    rw [joined, if_pos inside]
  · congr 1
    funext k c
    rw [joined, if_neg (by omega), Nat.add_sub_cancel]

variable [ExactField F]

private theorem joined_zero (n : Nat) : joined n (fun _ => (0 : F)) (fun _ => 0) = fun _ => 0 := by
  funext k
  exact ite_self 0

theorem joined_single_left {n k : Nat} (inside : k < n) :
    joined n (Pi.single k 1) (fun _ => (0 : F)) = Pi.single k 1 := by
  funext l
  simp only [joined, Pi.single_apply]
  split_ifs <;> first | rfl | omega

private theorem joined_single_right (n k : Nat) :
    joined n (fun _ => (0 : F)) (Pi.single k 1) = Pi.single (n + k) 1 := by
  funext l
  simp only [joined, Pi.single_apply]
  split_ifs <;> first | rfl | omega

/-- The weight one at `i`, and zero elsewhere. -/
theorem sum_zip_unit {items : List (Dual F)} {m i : Nat} (length : items.length = m)
    (inside : i < m) :
    ((items.zip ((List.range m).map fun k => if k = i then (1 : F) else 0)).map
      fun (d, w) => w * d.tangent).sum = (items.map Dual.tangent).getD i 0 := by
  have unit : vector ((List.range m).map fun k => if k = i then (1 : F) else 0) m =
      Pi.single ⟨i, inside⟩ 1 := by
    funext k
    simp [List.getD_eq_getElem?_getD, Pi.single_apply, Fin.ext_iff]
  rw [sum_zip_eq _ _ Dual.tangent length, unit, single_one_dotProduct, vector_apply]

/-- The tangent of an output combines the rates of the inputs, each by its tangent in the unit
direction of that input. -/
theorem Covers.tangent_eq_sum {n : Nat} {tape : Tape F} {outputs : List (Traced F)}
    {duals : (Nat → F) → List (Dual F)} (covers : Covers n tape outputs duals) {free : Nat → F}
    (still : ∀ k, n ≤ k → free k = 0) {i : Nat} (output : i < outputs.length) :
    ((duals free).map Dual.tangent).getD i 0 =
      ∑ k ∈ Finset.range n, ((duals (Pi.single k 1)).map Dual.tangent).getD i 0 * free k := by
  obtain ⟨adjoints, -, -, entry, combine⟩ := covers.exists_adjoints
    ((List.range outputs.length).map fun k => if k = i then (1 : F) else 0)
  rw [← sum_zip_unit (covers.length_eq free) output, combine free still]
  apply Finset.sum_congr rfl
  intro k inside
  rw [entry k (Finset.mem_range.mp inside), sum_zip_unit (covers.length_eq _) output]

/-- A function of two blocks of inputs on dual numbers in all directions of both: it ends in one
fault for all, or its tangents are covered by one recorded run. -/
theorem Function.exists_covers (f : Function F) (x y : List F)
    (fits : f.program.WithinWords (x.length + y.length)) :
    (∃ fault, ∀ a b, f.eval (M := Except Fault)
      { unknowns := varied a x, parameters := varied b y } = .error fault) ∨
    ∃ outputs tape duals, (∀ a b, f.eval (M := Except Fault)
        { unknowns := varied a x, parameters := varied b y } =
          .ok (duals (joined x.length a (joined y.length b fun _ => 0)))) ∧
      Covers (x.length + y.length) tape outputs duals := by
  rw [← List.length_append] at fits ⊢
  have arranged (s : Recording F) (free : Nat → F)
      (follow : List.Forall₂ (Recording.Follows free s) (varied free (x ++ y))
        (independents (x ++ y)).2) :
      ({ unknowns := (varied free (x ++ y)).take x.length
         parameters := (varied free (x ++ y)).drop x.length } : Inputs F (Dual F)).Related
        (Recording.Follows free s)
        { unknowns := (independents (x ++ y)).2.take x.length
          parameters := (independents (x ++ y)).2.drop x.length } :=
    ⟨List.forall₂_take _ follow, List.forall₂_drop _ follow, rfl, rfl⟩
  have block (a b : Nat → F) :
      ({ unknowns := varied a x, parameters := varied b y } : Inputs F (Dual F)) =
        { unknowns := (varied (joined x.length a (joined y.length b fun _ => 0)) (x ++ y)).take
            x.length
          parameters := (varied (joined x.length a (joined y.length b fun _ => 0)) (x ++ y)).drop
            x.length } := by
    have length : (varied a x).length = x.length := by simp [varied]
    have cut : varied (joined y.length b fun _ => 0) y = varied b y :=
      varied_congr fun k inside => if_pos inside
    rw [varied_joined, List.take_left' length, List.drop_left' length, cut]
  obtain ⟨fault, -, failed, -⟩ | ⟨outputs, tape, duals, runs, -, covers⟩ :=
    f.recorded_eval fits arranged
  · refine .inl ⟨fault, fun a b => ?_⟩
    rw [block]
    exact failed _
  · refine .inr ⟨outputs, tape, duals, fun a b => ?_, covers⟩
    rw [block]
    exact runs _

/-- **Tangents are linear in the direction.** A function of two blocks of inputs, run in any
direction of both, has the tangents that its Jacobians with respect to either block give. -/
theorem Function.eval_varied (f : Function F) (x y : List F)
    (fits : f.program.WithinWords (x.length + y.length)) {values others : List F} {byX byY : Rows F}
    (left : jacobian (fun xs => f.eval (M := Except Fault)
      { unknowns := xs, parameters := y.map Dual.constant }) x = .ok (values, byX))
    (right : jacobian (fun ys => f.eval (M := Except Fault)
      { unknowns := x.map Dual.constant, parameters := ys }) y = .ok (others, byY))
    (a b : Nat → F) :
    ∃ duals, f.eval (M := Except Fault) { unknowns := varied a x, parameters := varied b y } =
        .ok duals ∧ duals.map Dual.primal = values ∧
      vector (duals.map Dual.tangent) values.length =
        (Rows.matrix byX values.length x.length *ᵥ fun k => a k) +
          Rows.matrix byY values.length y.length *ᵥ fun k => b k := by
  obtain ⟨fault, failed⟩ | ⟨outputs, tape, duals, runs, covers⟩ := f.exists_covers x y fits
  · have stopped := failed (fun _ => 0) fun _ => 0
    rw [varied_zero, varied_zero] at stopped
    rw [jacobian, stopped] at left
    cases left
  have plain := runs (fun _ => 0) fun _ => 0
  rw [varied_zero, varied_zero] at plain
  have unknown (k : Nat) (inside : k < x.length) : f.eval (M := Except Fault)
      { unknowns := seededAt x k, parameters := y.map Dual.constant } =
        .ok (duals (Pi.single k 1)) := by
    rw [← varied_single, ← varied_zero, runs, joined_zero, joined_single_left inside]
  have parameter (k : Nat) (inside : k < y.length) : f.eval (M := Except Fault)
      { unknowns := x.map Dual.constant, parameters := seededAt y k } =
        .ok (duals (Pi.single (x.length + k) 1)) := by
    rw [← varied_single, ← varied_zero, runs, joined_single_left inside, joined_single_right]
  rw [jacobian_eq_pure plain unknown] at left
  rw [jacobian_eq_pure plain parameter] at right
  obtain ⟨same, rowsX⟩ := Prod.mk.inj (Except.ok.inj left)
  obtain ⟨-, rowsY⟩ := Prod.mk.inj (Except.ok.inj right)
  refine ⟨_, runs a b, (covers.values_eq _).trans ((covers.values_eq _).symm.trans same), ?_⟩
  have count : values.length = outputs.length := by
    rw [← same, List.length_map, covers.length_eq]
  have still (k : Nat) (above : x.length + y.length ≤ k) :
      joined x.length a (joined y.length b fun _ => 0) k = 0 := by
    rw [joined, if_neg (by omega), joined, if_neg (by omega)]
  rw [count, ← rowsX, ← rowsY, covers.length_eq, matrix_of_range, matrix_of_range]
  funext i
  rw [vector_apply, covers.tangent_eq_sum still i.2, Finset.sum_range_add, Pi.add_apply,
    Finset.sum_range, Finset.sum_range]
  congr 1
  · apply Finset.sum_congr rfl
    intro k _
    rw [joined, if_pos k.2]
    rfl
  · apply Finset.sum_congr rfl
    intro k _
    rw [joined, if_neg (by omega), joined, Nat.add_sub_cancel_left, if_pos k.2]
    rfl

end ImplicitDiff
