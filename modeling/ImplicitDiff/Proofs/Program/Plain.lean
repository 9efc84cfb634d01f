import ImplicitDiff.Proofs.Derivative.Directions

/-! # Dual numbers carry the plain run

In exact arithmetic a run on dual numbers computes the plain values on the side: it takes the same
branches, ends in the same faults and has the plain numbers for its values, in every direction.
-/

namespace ImplicitDiff

variable {F : Type}

/-- Two computations without a state: they end in the same fault, or both succeed. -/
def sideBySide : Coupling (Except Fault) (Except Fault) where
  Stage := Unit
  Later _ _ := True
  Runs _ related s m n := (∀ a, m = .ok a → ∃ b, n = .ok b ∧ related s a b) ∧
    ∀ fault, m = .error fault → n = .error fault
  later_refl _ := trivial
  later_trans _ _ := trivial
  pure here := ⟨fun _ same => ⟨_, rfl, by cases same; exact here⟩, fun _ none => (nomatch none)⟩
  fault _ _ _ := ⟨fun _ none => (nomatch none), fun _ same => by cases same; rfl⟩
  weaken runs _ := runs
  bind {α β γ δ first second cost more s m n f g} runs next := by
    obtain ⟨succeeds, fails⟩ := runs
    cases m with
    | error fault =>
      rw [fails fault rfl]
      exact ⟨fun _ none => (nomatch none), fun _ same => by cases same; rfl⟩
    | ok a =>
      obtain ⟨b, rfl, here⟩ := succeeds a rfl
      exact next s a b trivial here

private theorem sideBySide_respects [ExactField F] :
    sideBySide.Respects fun _ (c : F) (d : Dual F) => d.primal = c where
  later _ same := same
  value same := same.symm
  lift _ _ := rfl
  neg same := sideBySide.weaken (sideBySide.pure (congrArg Neg.neg same)) zero_le_one
  elementary f same := sideBySide.weaken (sideBySide.pure (congrArg f.value same)) zero_le_one
  operate {s a c b d} o left right := by
    refine sideBySide.weaken (sideBySide.pure ?_) zero_le_one
    rw [← left, ← right]
    cases o with
    | add => rfl
    | sub => rfl
    | mul => rfl
    | div => exact (div_eq_mul_one_div _ _).symm
  operateRight {s a b} o c same := by
    refine sideBySide.weaken (sideBySide.pure ?_) zero_le_one
    rw [← same]
    cases o <;> rfl
  operateLeft {s a b} o c same := by
    refine sideBySide.weaken (sideBySide.pure ?_) zero_le_one
    rw [← same]
    cases o with
    | add => rfl
    | sub => rfl
    | mul => rfl
    | div => exact (div_eq_mul_one_div _ _).symm

theorem forall₂_varied (free : Nat → F) (x : List F) :
    List.Forall₂ (fun c (d : Dual F) => d.primal = c) x (varied free x) := by
  have values := List.forall₂_map_left_iff.mp (List.forall₂_eq_eq_eq ▸ primal_varied free x)
  exact values.flip

/-- The values of a function on dual numbers are those of its plain run. -/
theorem Function.eval_plain [ExactField F] (f : Function F) (x y : List F) (a b : Nat → F) :
    f.eval (M := Except Fault) { unknowns := x, parameters := y } =
      (f.eval (M := Except Fault) { unknowns := varied a x, parameters := varied b y }).map
        (List.map Dual.primal) := by
  have inputs : ({ unknowns := x, parameters := y } : Inputs F F).Related
      (fun c (d : Dual F) => d.primal = c)
      { unknowns := varied a x, parameters := varied b y } :=
    ⟨forall₂_varied a x, forall₂_varied b y, rfl, rfl⟩
  have runs : sideBySide.Runs _ _ () _ _ := sideBySide_respects.function inputs f
  obtain ⟨succeeds, fails⟩ := runs
  cases plain : f.eval (M := Except Fault) { unknowns := x, parameters := y } with
  | error fault => rw [fails fault plain]; rfl
  | ok values =>
    obtain ⟨duals, ran, same⟩ := succeeds values plain
    have equal : values = duals.map Dual.primal := by
      rw [← List.forall₂_eq_eq_eq, List.forall₂_map_right_iff]
      exact same.imp fun _ _ here => here.symm
    rw [ran, equal]
    rfl

/-- Where the plain run succeeds, so does the run on dual numbers in every direction. -/
theorem Function.exists_duals [ExactField F] (f : Function F) {x y values : List F}
    (ran : f.eval (M := Except Fault) { unknowns := x, parameters := y } = .ok values)
    (a b : Nat → F) :
    ∃ duals, f.eval (M := Except Fault)
        { unknowns := varied a x, parameters := varied b y } = .ok duals ∧
      duals.map Dual.primal = values := by
  rw [f.eval_plain x y a b] at ran
  cases run : f.eval (M := Except Fault)
      { unknowns := varied a x, parameters := varied b y } with
  | error fault =>
    rw [run] at ran
    cases ran
  | ok duals =>
    rw [run] at ran
    exact ⟨duals, rfl, Except.ok.inj ran⟩

end ImplicitDiff
