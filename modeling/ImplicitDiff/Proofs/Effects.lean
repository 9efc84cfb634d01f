import Mathlib.Tactic
import ImplicitDiff.Journal

/-! # Runs of computations

A computation passes a state on and may end in a fault; a solve may also fail for a reason that it
names. Runs of composed computations are taken apart here, so that no later proof looks into the
way effects are stacked.
-/

namespace ImplicitDiff

variable {σ ε α β : Type} {s t u : σ}

/-- A step that cannot fail makes a list of steps that cannot fail. -/
theorem mapM_eq_pure {M : Type → Type} [Monad M] [LawfulMonad M] {f : α → M β}
    {g : α → β} {items : List α} (succeeds : ∀ a ∈ items, f a = pure (g a)) :
    items.mapM f = pure (items.map g) := by
  induction items with
  | nil => rfl
  | cons a rest ih =>
    simp only [List.forall_mem_cons] at succeeds
    simp only [List.mapM_cons, succeeds.1, ih succeeds.2, pure_bind, List.map_cons]

theorem mapM_congr {M : Type → Type} [Monad M] [LawfulMonad M] {f g : α → M β} {items : List α}
    (same : ∀ a ∈ items, f a = g a) : items.mapM f = items.mapM g := by
  induction items with
  | nil => rfl
  | cons a rest ih =>
    rw [List.forall_mem_cons] at same
    rw [List.mapM_cons, List.mapM_cons, same.1, ih same.2]

theorem except_bind_eq_ok_iff {m : Except ε α} {f : α → Except ε β} {b : β} :
    m >>= f = .ok b ↔ ∃ a, m = .ok a ∧ f a = .ok b := by
  cases m with
  | error e => exact ⟨fun ended => (nomatch ended), fun ⟨_, ended, _⟩ => (nomatch ended)⟩
  | ok a => exact ⟨fun ran => ⟨a, rfl, ran⟩, fun ⟨_, first, ran⟩ => by cases first; exact ran⟩

theorem mapM_eq_ok_iff {f : α → Except ε β} {items : List α} {results : List β} :
    items.mapM f = .ok results ↔ List.Forall₂ (fun a b => f a = .ok b) items results := by
  induction items generalizing results with
  | nil =>
    rw [List.forall₂_nil_left_iff]
    exact ⟨fun ran => (Except.ok.inj ran).symm, fun none => none ▸ rfl⟩
  | cons a rest ih =>
    rw [List.mapM_cons, except_bind_eq_ok_iff, List.forall₂_cons_left_iff]
    constructor
    · rintro ⟨b, first, ran⟩
      obtain ⟨others, below, last⟩ := except_bind_eq_ok_iff.mp ran
      exact ⟨b, others, first, ih.mp below, (Except.ok.inj last).symm⟩
    · rintro ⟨b, others, first, below, rfl⟩
      exact ⟨b, first, except_bind_eq_ok_iff.mpr ⟨others, ih.mpr below, rfl⟩⟩

/-- What each item appends to a list, all of them append. -/
theorem foldlM_appends {γ : Type} {step : List α → β → Except ε (List α)} {view : α → γ}
    {part : β → Option γ} (each : ∀ sofar b next, step sofar b = .ok next →
      next.map view = sofar.map view ++ (part b).toList) {items : List β} {sofar all : List α}
    (ran : items.foldlM step sofar = .ok all) :
    all.map view = sofar.map view ++ items.filterMap part := by
  induction items generalizing sofar with
  | nil =>
    cases ran
    exact (List.append_nil _).symm
  | cons b rest ih =>
    rw [List.foldlM_cons] at ran
    obtain ⟨next, first, onward⟩ := except_bind_eq_ok_iff.mp ran
    rw [ih onward, each sofar b next first, List.append_assoc]
    cases found : part b <;> simp [found]

theorem fetch_eq_ok_iff {found : Option α} {a : α} :
    (fetch found : Except Fault α) = .ok a ↔ found = some a := by
  cases found with
  | none => exact ⟨fun ended => (nomatch ended), fun ended => (nomatch ended)⟩
  | some b => exact ⟨fun same => congrArg some (Except.ok.inj same), fun same => by cases same; rfl⟩

section Fault

variable {m : ExceptT Fault (StateM σ) α} {f : α → ExceptT Fault (StateM σ) β}

theorem run_bind_of_ok {a : α} (first : m.run.run s = (.ok a, t)) :
    (m >>= f).run.run s = (f a).run.run t := by
  rw [ExceptT.run_bind, StateT.run_bind, first]
  rfl

theorem run_bind_of_error {fault : Fault} (first : m.run.run s = (.error fault, t)) :
    (m >>= f).run.run s = (.error fault, t) := by
  rw [ExceptT.run_bind, StateT.run_bind, first]
  rfl

theorem run_bind_eq_ok_iff {b : β} : (m >>= f).run.run s = (.ok b, u) ↔
    ∃ a t, m.run.run s = (.ok a, t) ∧ (f a).run.run t = (.ok b, u) := by
  constructor
  · intro ran
    rcases first : m.run.run s with ⟨result, t⟩
    cases result with
    | ok a => exact ⟨a, t, rfl, (run_bind_of_ok first).symm.trans ran⟩
    | error fault => cases (run_bind_of_error first).symm.trans ran
  · rintro ⟨a, t, first, second⟩
    exact (run_bind_of_ok first).trans second

end Fault

section Failure

variable {m : ExceptT ε (ExceptT Fault (StateM σ)) α}
  {f : α → ExceptT ε (ExceptT Fault (StateM σ)) β}

theorem solve_bind_of_ok {a : α} (first : m.run.run.run s = (.ok (.ok a), t)) :
    (m >>= f).run.run.run s = (f a).run.run.run t := by
  rw [ExceptT.run_bind, run_bind_of_ok first]

theorem solve_bind_of_error {cause : ε} (first : m.run.run.run s = (.ok (.error cause), t)) :
    (m >>= f).run.run.run s = (.ok (.error cause), t) := by
  rw [ExceptT.run_bind, run_bind_of_ok first]
  rfl

theorem solve_bind_of_fault {fault : Fault} (first : m.run.run.run s = (.error fault, t)) :
    (m >>= f).run.run.run s = (.error fault, t) := by
  rw [ExceptT.run_bind, run_bind_of_error first]

theorem solve_bind_eq_ok_iff {b : β} : (m >>= f).run.run.run s = (.ok (.ok b), u) ↔
    ∃ a t, m.run.run.run s = (.ok (.ok a), t) ∧ (f a).run.run.run t = (.ok (.ok b), u) := by
  rw [ExceptT.run_bind, run_bind_eq_ok_iff]
  constructor
  · rintro ⟨result, t, first, second⟩
    cases result with
    | ok a => exact ⟨a, t, first, second⟩
    | error cause => cases second
  · rintro ⟨a, t, first, second⟩
    exact ⟨.ok a, t, first, second⟩

/-- A first part that names no reason to fail leaves the rest to decide. -/
theorem lift_bind_eq_ok_iff {m : ExceptT Fault (StateM σ) α} {result : Except ε β} :
    ((liftM m : ExceptT ε (ExceptT Fault (StateM σ)) α) >>= f).run.run.run s = (.ok result, u) ↔
      ∃ a t, m.run.run s = (.ok a, t) ∧ (f a).run.run.run t = (.ok result, u) := by
  have run : ((liftM m : ExceptT ε (ExceptT Fault (StateM σ)) α) >>= f).run =
      m >>= fun a => (f a).run := by
    rw [ExceptT.run_bind]
    exact bind_map_left ..
  rw [run, run_bind_eq_ok_iff]

end Failure

theorem run_ofExcept_bind {F : Type} {result : Except Fault α} {a : α} (ended : result = .ok a)
    (f : α → SearchM F β) (journal : Journal F) :
    ((liftM result : SearchM F α) >>= f).run.run journal = (f a).run.run journal := by
  subst ended
  rfl

/-- The computation ends in `result`, whatever the journal holds, and adds the same events each
time. -/
def EndsIn {F : Type} (m : SearchM F α) (result : Except Fault α) : Prop :=
  ∃ events, ∀ journal, m.run.run journal = (result, journal ++ events)

namespace EndsIn

variable {F : Type} {m : SearchM F α} {f : α → SearchM F β} {result : Except Fault α}
  {g : α → Except Fault β}

theorem ofExcept (result : Except Fault α) : EndsIn (liftM result : SearchM F α) result :=
  ⟨#[], fun _ => congrArg (result, ·) Array.append_empty.symm⟩

theorem pure (a : α) : EndsIn (Pure.pure a : SearchM F α) (.ok a) := ofExcept (.ok a)

theorem note (e : Event F) : EndsIn (note e) (.ok ()) :=
  ⟨#[e], fun _ => congrArg (Except.ok (), ·) Array.append_singleton.symm⟩

theorem bind (first : EndsIn m result) (next : ∀ a, EndsIn (f a) (g a)) :
    EndsIn (m >>= f) (result >>= g) := by
  obtain ⟨events, ran⟩ := first
  cases result with
  | error fault => exact ⟨events, fun journal => run_bind_of_error (ran journal)⟩
  | ok a =>
    obtain ⟨more, went⟩ := next a
    refine ⟨events ++ more, fun journal => ?_⟩
    rw [run_bind_of_ok (ran journal), went, Array.append_assoc]
    rfl

theorem mapM (each : ∀ a, EndsIn (f a) (g a)) (items : List α) :
    EndsIn (items.mapM f) (items.mapM g) := by
  induction items with
  | nil => exact pure []
  | cons a rest ih =>
    rw [List.mapM_cons, List.mapM_cons]
    exact (each a).bind fun b => ih.bind fun rest => pure (b :: rest)

end EndsIn

/-- The computation succeeds with `a`, whatever the journal holds, and adds `events` to it. -/
def Yields {F : Type} (m : SearchM F α) (events : Journal F) (a : α) : Prop :=
  ∀ journal, m.run.run journal = (.ok a, journal ++ events)

namespace Yields

variable {F : Type} {m : SearchM F α} {f : α → SearchM F β} {events more : Journal F} {a : α}
  {b : β}

theorem pure (a : α) : Yields (Pure.pure a : SearchM F α) #[] a :=
  fun _ => congrArg (Except.ok a, ·) Array.append_empty.symm

theorem note (e : Event F) : Yields (note e) #[e] () :=
  fun _ => congrArg (Except.ok (), ·) Array.append_singleton.symm

theorem bind (first : Yields m events a) (next : Yields (f a) more b) :
    Yields (m >>= f) (events ++ more) b := fun journal => by
  rw [run_bind_of_ok (first journal), next, Array.append_assoc]

theorem wrote (messages : List (Message F)) :
    Yields (messages.forM fun message => ImplicitDiff.note (.wrote message))
      (messages.map Event.wrote).toArray () := by
  induction messages with
  | nil => exact .pure ()
  | cons message rest ih =>
    rw [List.map_cons, List.toArray_cons]
    exact (note _).bind ih

theorem map (first : Yields m events a) (g : α → β) :
    Yields (m >>= fun a => Pure.pure (g a)) events (g a) := fun journal => by
  rw [run_bind_of_ok (first journal)]
  rfl

/-- A computation succeeds with one result. -/
theorem unique {other : α} (first : Yields m events a) (second : Yields m more other) :
    a = other :=
  Except.ok.inj (congrArg Prod.fst ((first #[]).symm.trans (second #[])))

/-- A computation that succeeds adds the same events each time. -/
theorem unique_events {other : α} (first : Yields m events a) (second : Yields m more other) :
    events = more := by
  have same := congrArg Prod.snd ((first #[]).symm.trans (second #[]))
  simpa using same

theorem ofExcept {result : Except Fault α} (succeeds : result = .ok a) :
    Yields (liftM result : SearchM F α) #[] a := by
  subst succeeds
  exact pure a

theorem endsIn (yields : Yields m events a) : EndsIn m (.ok a) := ⟨events, yields⟩

end Yields

/-- The solve ends in `result`, whatever the journal holds, and adds the same events each time. -/
def Gives {F : Type} (m : ExceptT ε (SearchM F) α) (result : Except ε α) : Prop :=
  ∃ events, Yields m.run events result

section Solve

variable {F : Type} {m : ExceptT ε (SearchM F) α} {f : α → ExceptT ε (SearchM F) β}
  {result : Except Fault (Except ε β)} {a : α} {fault : Fault}

theorem EndsIn.lift {m : SearchM F α} (ended : EndsIn m (.ok a)) :
    Gives (liftM m : ExceptT ε (SearchM F) α) (.ok a) := by
  obtain ⟨events, ran⟩ := ended
  exact ⟨events, fun journal => run_bind_of_ok (ran journal)⟩

theorem EndsIn.solve_bind (first : Gives m (.ok a)) (next : EndsIn (f a).run result) :
    EndsIn (m >>= f).run result := by
  obtain ⟨events, ran⟩ := first
  obtain ⟨more, went⟩ := next
  refine ⟨events ++ more, fun journal => ?_⟩
  rw [solve_bind_of_ok (ran journal), went, Array.append_assoc]

theorem EndsIn.solve_stop {m : SearchM F α} {f : α → ExceptT ε (SearchM F) β}
    (first : EndsIn m (.error fault)) :
    EndsIn ((liftM m : ExceptT ε (SearchM F) α) >>= f).run (.error fault) := by
  obtain ⟨events, ran⟩ := first
  exact ⟨events, fun journal => solve_bind_of_fault (run_bind_of_error (ran journal))⟩

end Solve

namespace Gives

variable {F : Type} {m : ExceptT ε (SearchM F) α} {f : α → ExceptT ε (SearchM F) β}
  {result : Except ε β} {a : α} {cause : ε}

theorem pure (a : α) : Gives (Pure.pure a : ExceptT ε (SearchM F) α) (.ok a) := ⟨#[], .pure _⟩

theorem throw (cause : ε) : Gives (throw cause : ExceptT ε (SearchM F) α) (.error cause) :=
  ⟨#[], .pure _⟩

theorem lift {m : SearchM F α} {events : Journal F} (yields : Yields m events a) :
    Gives (liftM m : ExceptT ε (SearchM F) α) (.ok a) := yields.endsIn.lift

theorem bind (first : Gives m (.ok a)) (next : Gives (f a) result) : Gives (m >>= f) result :=
  EndsIn.solve_bind first next

theorem stop (first : Gives m (.error cause)) : Gives (m >>= f) (.error cause) := by
  obtain ⟨events, ran⟩ := first
  exact ⟨events, fun journal => solve_bind_of_error (ran journal)⟩

end Gives

end ImplicitDiff
