import ImplicitDiff.Proofs.Solver.Answers
import ImplicitDiff.Proofs.Solver.Sensitivity

/-! # Equations that may end in a fault

Equations need not give a result everywhere. With an empty result in the place of each fault they
are total, and a computation that runs into no fault does the same with either of them. So what is
known of total equations holds of every run that comes to an end.
-/

namespace ImplicitDiff

variable {F α β : Type}

/-- Where the first computation succeeds, the second one does the same. -/
def ExtendedBy (m wider : SearchM F α) : Prop :=
  ∀ journal a last, m.run.run journal = (.ok a, last) → wider.run.run journal = (.ok a, last)

namespace ExtendedBy

variable {m wider : SearchM F α} {f g : α → SearchM F β}

theorem refl (m : SearchM F α) : ExtendedBy m m := fun _ _ _ => id

theorem bind (first : ExtendedBy m wider) (next : ∀ a, ExtendedBy (f a) (g a)) :
    ExtendedBy (m >>= f) (wider >>= g) := by
  intro journal b last ran
  obtain ⟨a, middle, began, ended⟩ := run_bind_eq_ok_iff.mp ran
  exact run_bind_eq_ok_iff.mpr ⟨a, middle, first _ _ _ began, next a _ _ _ ended⟩

theorem mapM (each : ∀ a, ExtendedBy (f a) (g a)) (items : List α) :
    ExtendedBy (items.mapM f) (items.mapM g) := by
  induction items with
  | nil => exact refl _
  | cons a rest ih =>
    rw [List.mapM_cons, List.mapM_cons]
    exact (each a).bind fun b => ih.bind fun rest => refl _

theorem ofExcept {result other : Except Fault α} (same : ∀ a, result = .ok a → other = .ok a) :
    ExtendedBy (liftM result : SearchM F α) (liftM other) := by
  intro journal a last ran
  cases result with
  | error fault => cases ran
  | ok b => exact same b rfl ▸ ran

/-- What the wider computation does, the other one does where it succeeds. -/
theorem of_yields {events journal last : Journal F} {a b : α} (extended : ExtendedBy m wider)
    (yields : Yields wider events b) (ran : m.run.run journal = (.ok a, last)) :
    a = b ∧ last = journal ++ events := by
  have same := (extended _ _ _ ran).symm.trans (yields journal)
  exact ⟨Except.ok.inj (congrArg Prod.fst same), congrArg Prod.snd same⟩

end ExtendedBy

namespace RootSearch

variable [Arith F] {p q : Problem F} {settings : Settings F}

/-- Iterations do not notice what is answered where they do not ask. -/
theorem run_extendedBy (residual : ∀ x, ExtendedBy (p.residual x) (q.residual x))
    (jacobian : ∀ x, ExtendedBy (p.jacobian x) (q.jacobian x)) (s : State F) :
    ExtendedBy (run settings p s) (run settings q s) := by
  rw [run_eq settings p, run_eq settings q]
  refine (residual _).bind fun values => ?_
  dsimp only
  by_cases fits : values.length = s.point.length
  case neg =>
    rw [if_pos fits, if_pos fits]
    exact .refl _
  rw [if_neg (not_not.mpr fits), if_neg (not_not.mpr fits)]
  refine (ExtendedBy.refl _).bind fun _ => ?_
  cases goesOn : (s.advance s.trial (s.assess s.trial values)).verdict settings s.trial.size with
  | some reason => exact .refl _
  | none =>
    -- Both searches are in the same state, with less of the budget left.
    have left := State.evaluations_lt_of_verdict goesOn
    dsimp only
    split_ifs with failed
    · refine (jacobian _).bind fun rows => ?_
      split_ifs with finite
      · exact (ExtendedBy.refl _).bind fun columns => run_extendedBy residual jacobian _
      · exact .refl _
    · exact run_extendedBy residual jacobian _
termination_by settings.budget - s.evaluations
decreasing_by
  all_goals
    simp only [State.evaluations_advance, State.evaluations_linearized, State.evaluations_refresh,
      State.evaluations_correct] at left ⊢
    omega

private theorem search_extendedBy (residual : ∀ x, ExtendedBy (p.residual x) (q.residual x))
    (jacobian : ∀ x, ExtendedBy (p.jacobian x) (q.jacobian x)) (x : List F) :
    ExtendedBy (search settings p x) (search settings q x) := by
  refine (residual x).bind fun values => ?_
  dsimp only
  split_ifs
  · exact .refl _
  · exact .refl _
  · exact .refl _
  · refine (jacobian x).bind fun rows => ?_
    split_ifs
    · exact (ExtendedBy.refl _).bind fun columns => run_extendedBy residual jacobian _
    · exact .refl _

end RootSearch

namespace Solver

/-- The equations with an empty result in the place of each fault. -/
def Equations.total (equations : Equations F) : Equations F :=
  { equations with
    residual data unknowns parameters :=
      .ok ((equations.residual data unknowns parameters).toOption.getD []) }

private theorem Equations.total_of_ok {equations : Equations F} {data : Data F}
    {unknowns parameters values : List (Dual F)}
    (succeeds : equations.residual data unknowns parameters = .ok values) :
    equations.total.residual data unknowns parameters = .ok values := by
  change Except.ok ((equations.residual data unknowns parameters).toOption.getD []) = _
  rw [succeeds]
  rfl

namespace Restriction

/-- The total equations as a function of the same argument. -/
def total (r : Restriction F) : Restriction F := { r with equations := r.equations.total }

variable [Arith F] (r : Restriction F)

/-- What the total equations compute. -/
def totalValue (x : List (Dual F)) : List (Dual F) := (r.outcome x).toOption.getD []

theorem total_computes (n : Nat) : r.total.Computes n r.totalValue := by
  intro x _
  obtain ⟨equations, data, _ | _, fixed⟩ := r
  all_goals exact Equations.call_yields rfl

theorem call_extendedBy (x : List (Dual F)) : ExtendedBy (r.call x) (r.total.call x) := by
  obtain ⟨equations, data, _ | _, fixed⟩ := r
  all_goals
    exact (ExtendedBy.refl _).bind fun _ => (ExtendedBy.refl _).bind fun _ =>
      .ofExcept fun _ => Equations.total_of_ok

theorem residual_extendedBy (x : List F) : ExtendedBy (r.residual x) (r.total.residual x) :=
  (ExtendedBy.refl _).bind fun _ => (r.call_extendedBy _).bind fun _ => .refl _

theorem jacobian_extendedBy (x : List F) : ExtendedBy (r.jacobian x) (r.total.jacobian x) := by
  refine (ExtendedBy.refl _).bind fun _ => ExtendedBy.bind ?_ fun _ => .refl _
  refine (r.call_extendedBy _).bind fun _ => ?_
  exact (ExtendedBy.mapM (fun j => r.call_extendedBy (seededAt x j)) _).bind fun _ => .refl _

/-- The answers of the total equations to a search for `n` unknowns. -/
def answers (n : Nat) : RootSearch.Answers r.total.problem n := (r.total_computes n).answers

/-- What is noted of a residual. -/
def residualEvents (x : List F) : Journal F := #[.evaluated x] ++ r.notes (x.map Dual.constant)

/-- What is noted of a Jacobian. -/
def jacobianEvents (x : List F) : Journal F := #[.linearized x] ++ r.jacobianNotes x

variable {r} {journal last : Journal F} {x : List F}

/-- A residual that is evaluated takes one call. -/
theorem residual_eq_ok {values : List F}
    (ran : (r.residual x).run.run journal = (.ok values, last)) :
    values = plainly r.totalValue x ∧ last = journal ++ r.residualEvents x :=
  (r.residual_extendedBy x).of_yields ((r.total_computes x.length).residual_yields rfl) ran

/-- A Jacobian that is evaluated takes its calls. -/
theorem jacobian_eq_ok {rows : Rows F}
    (ran : (r.jacobian x).run.run journal = (.ok rows, last)) :
    rows = slopes r.totalValue x ∧ last = journal ++ r.jacobianEvents x :=
  (r.jacobian_extendedBy x).of_yields ((r.total_computes x.length).jacobian_yields rfl) ran

/-- A search that comes to an end takes one of the courses that the total equations allow. -/
theorem search_eq_ok {settings : RootSearch.Settings F} {o : RootSearch.Outcome F}
    (ran : (RootSearch.search settings r.problem x).run.run journal = (.ok o, last)) :
    ∃ events, last = journal ++ events ∧
      RootSearch.Course (r.answers x.length) settings x events o := by
  obtain ⟨events, _, yields, course⟩ :=
    RootSearch.exists_course (a := r.answers x.length) (r.total_computes x.length).isSquare settings
  obtain ⟨rfl, rfl⟩ := (RootSearch.search_extendedBy r.residual_extendedBy r.jacobian_extendedBy
    x).of_yields yields ran
  exact ⟨events, rfl, course⟩

end Restriction

end Solver

end ImplicitDiff
