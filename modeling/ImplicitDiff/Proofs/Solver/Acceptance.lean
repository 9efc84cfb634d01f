import Mathlib.Tactic
import ImplicitDiff.Proofs.RootSearch.Report
import ImplicitDiff.Proofs.Solver.Answers
import ImplicitDiff.Solver.Root

/-! # What a solve accepts and what it reports

A solve of total equations reports the first precondition that its arguments break. If they break
none, it reports the first residual of the wrong length, then a search that used up its budget, then
a residual that is too long for a root, and only then accepts the root.
-/

namespace ImplicitDiff.Solver

open Arith

variable {F : Type}

section Screening

/-- The outcome of checks that find these violations. -/
def firstOf (causes : List (InvalidInput F)) : Except (InvalidInput F) Unit :=
  match causes.head? with
  | none => .ok ()
  | some cause => .error cause

private theorem firstOf_append (causes more : List (InvalidInput F)) :
    firstOf (causes ++ more) = (do firstOf causes; firstOf more) := by
  cases causes <;> rfl

variable [Arith F]

/-- The entries of a vector that are not finite. -/
def offenders (name : String) (v : List F) : List (InvalidInput F) :=
  v.zipIdx.filterMap fun (x, i) => if isFinite x then none else some (.nonFinite name i x)

/-- The preconditions that the arguments of a solve break. -/
def violations (guess parameters reals : List F) (s : Settings F) : List (InvalidInput F) :=
  (if guess = [] then [.emptyVector "initial guess"] else []) ++
  (if parameters = [] then [.emptyVector "parameter vector"] else []) ++
  offenders "initial guess" guess ++
  offenders "parameter vector" parameters ++
  offenders "continuous data" reals ++
  (if 0 < s.relativeTolerance then []
    else [.nonPositive "relative_tolerance" s.relativeTolerance]) ++
  (if 0 < s.functionTolerance then []
    else [.nonPositive "function_tolerance" s.functionTolerance]) ++
  (if 1 ≤ s.budget then [] else [.nonPositive "max_num_steps" 0])

private theorem screenFinite_eq (name : String) (v : List F) :
    screenFinite name v = firstOf (offenders name v) := by
  unfold screenFinite firstOf offenders
  rw [List.head?_filterMap]
  generalize v.zipIdx = entries
  induction entries with
  | nil => rfl
  | cons entry entries ih =>
    rw [List.find?_cons, List.findSome?_cons]
    cases finite : isFinite entry.1 with
    | true => simpa [finite] using ih
    | false => simp [finite]

/-- The first violation is what is reported. -/
theorem screen_eq (guess parameters reals : List F) (s : Settings F) :
    screen guess parameters reals s = firstOf (violations guess parameters reals s) := by
  have size (name : String) (v : List F) :
      screenSize name v = firstOf (if v = [] then [.emptyVector name] else [] :
        List (InvalidInput F)) := by
    cases v <;> rfl
  have positive (name : String) (x : F) :
      screenPositive name x = firstOf (if 0 < x then [] else [.nonPositive name x]) := by
    unfold screenPositive
    split_ifs <;> rfl
  have budget : (if s.budget = 0 then throw (.nonPositive "max_num_steps" 0) else pure ()) =
      firstOf (if 1 ≤ s.budget then [] else [.nonPositive "max_num_steps" (0 : F)]) := by
    cases s.budget <;> rfl
  unfold screen Settings.screen violations
  simp only [firstOf_append, size, positive, screenFinite_eq, budget, bind_assoc]

end Screening

section Verdict

variable [Arith F]

/-- What a solve gives, from what its parts gave: the first violation, the number of residuals where
it first was not `n`, and the outcome of the search. -/
def judge (settings : Settings F) (n : Nat) (violation : Option (InvalidInput F))
    (unfit : Option Nat) (o : RootSearch.Outcome F) : Except (Failure F) (Root F) :=
  match violation, unfit with
  | some cause, _ => .error (.invalidInput cause)
  | none, some actual => .error (.dimensionMismatch n actual)
  | none, none =>
    if settings.budget ≤ o.evaluations then
      .error (.nonConvergence settings.budget o.evaluations)
    else if norm o.residual ≤ settings.functionTolerance then
      .ok { point := o.point, norm := norm o.residual, evaluations := o.evaluations
            jacobians := o.jacobians, iterations := o.iterations, termination := o.termination }
    else .error (.unacceptableRoot (norm o.residual) settings.functionTolerance)

end Verdict

section Solve

variable [Arith F]

theorem accept_gives (settings : Settings F) (o : RootSearch.Outcome F) :
    Gives (accept settings o o.residual) (if norm o.residual ≤ settings.functionTolerance then
        .ok { point := o.point, norm := norm o.residual, evaluations := o.evaluations
              jacobians := o.jacobians, iterations := o.iterations, termination := o.termination }
      else .error (.unacceptableRoot (norm o.residual) settings.functionTolerance)) := by
  unfold accept
  dsimp only
  split_ifs with short
  · exact (Gives.lift (.note _)).bind (.pure _)
  · exact (Gives.lift (.note _)).bind (.throw _)

omit [Arith F] in
theorem requireLength_gives {n : Nat} {residual : List F} (fits : residual.length = n) :
    Gives (requireLength n residual) (.ok ()) := by
  rw [requireLength, if_pos fits]
  exact .pure ()

omit [Arith F] in
private theorem requireLength_stops {n : Nat} {residual : List F} (unfit : residual.length ≠ n) :
    Gives (requireLength n residual) (.error (.dimensionMismatch n residual.length)) := by
  rw [requireLength, if_neg unfit]
  exact .throw _

variable {equations : Equations F} {data : Data F} {guess parameters : List F}
  {settings : Settings F}

/-- With a violation nothing is called. -/
theorem findRoot_of_violation {cause : InvalidInput F}
    (violation : (violations guess parameters data.reals settings).head? = some cause) :
    Yields (findRoot equations guess parameters data settings).run #[]
      (.error (.invalidInput cause)) := by
  rw [findRoot, screen_eq, firstOf, violation]
  exact fun journal => congrArg (Except.ok _, ·) Array.append_empty.symm

/-- Without a violation the search decides. -/
theorem findRoot_of_admitted {g : List (Dual F) → List (Dual F)} {c : Account F}
    {searched : Journal F} {o : RootSearch.Outcome F}
    (admitted : (violations guess parameters data.reals settings).head? = none)
    (computes : (equations.atParameters data parameters).Computes guess.length g)
    (ran : Yields (RootSearch.search settings.search
      (equations.atParameters data parameters).problem guess) searched o)
    (report : RootSearch.Report settings.search (plainly g) guess c o) :
    Gives (findRoot equations guess parameters data settings) (judge settings guess.length none
      (RootSearch.firstUnfit (plainly g) guess.length c.tried) o) := by
  have screening : Gives (F := F)
      (screened (screen guess parameters data.reals settings)) (.ok ()) := by
    rw [screen_eq, firstOf, admitted]
    exact .pure ()
  have first : Gives (F := F) (ε := Failure F)
      (liftM ((equations.atParameters data parameters).residual guess)) (.ok (plainly g guess)) :=
    .lift (computes.residual_yields rfl)
  refine screening.bind (first.bind ?_)
  by_cases fits : (plainly g guess).length = guess.length
  case neg =>
    rw [RootSearch.firstUnfit_of_head report.head_tried fits]
    exact (requireLength_stops fits).stop
  refine (requireLength_gives fits).bind (Gives.bind (.lift ran) ?_)
  dsimp only
  cases unfit : RootSearch.firstUnfit (plainly g) guess.length c.tried with
  | some actual =>
    rw [(report.mismatch_iff actual).mpr unfit]
    exact (Gives.throw _).stop
  | none =>
    have residual : Gives (F := F) (ε := Failure F)
        (liftM ((equations.atParameters data parameters).residual o.point)) (.ok o.residual) := by
      rw [report.residual]
      exact .lift (computes.residual_yields report.length)
    have again : o.residual.length = guess.length := by
      rw [report.residual]
      exact RootSearch.length_of_firstUnfit_eq_none unfit report.mem_tried
    split
    case h_1 actual ended => cases unfit.symm.trans ((report.mismatch_iff actual).mp ended)
    rw [judge]
    split_ifs with spent short
    · exact (Gives.lift (.note _)).bind (Gives.throw _).stop
    · have accepted := accept_gives settings o
      rw [if_pos short] at accepted
      exact residual.bind ((requireLength_gives again).bind accepted)
    · have rejected := accept_gives settings o
      rw [if_neg short] at rejected
      exact residual.bind ((requireLength_gives again).bind rejected)

/-- A plain solve gives the point of the root and notes the same. -/
theorem solve_yields {events : Journal F} {result : Except (Failure F) (Root F)}
    (found : Yields (findRoot equations guess parameters data settings).run events result) :
    Yields (solve equations guess parameters data settings).run events
      (result.map Root.point) := by
  have run : (solve equations guess parameters data settings).run =
      (findRoot equations guess parameters data settings).run >>= fun result =>
        pure (result.map Root.point) := by
    rw [solve, bind_pure_comp, ExceptT.run_map, map_eq_pure_bind]
  rw [run]
  exact found.map _

/-- Which of its outcomes a solve has, and exactly when. It asked `value` at the points `tried` in a
search that had the outcome `o`. -/
structure Classified (settings : Settings F) (guess parameters reals : List F)
    (value : List F → List F) (tried : List (List F)) (o : RootSearch.Outcome F)
    (result : Except (Failure F) (Root F)) : Prop where
  invalid_iff (cause : InvalidInput F) : result = .error (.invalidInput cause) ↔
    (violations guess parameters reals settings).head? = some cause
  mismatch_iff (expected actual : Nat) : result = .error (.dimensionMismatch expected actual) ↔
    violations guess parameters reals settings = [] ∧ expected = guess.length ∧
      RootSearch.firstUnfit value guess.length tried = some actual
  spent_iff (budget evaluations : Nat) : result = .error (.nonConvergence budget evaluations) ↔
    violations guess parameters reals settings = [] ∧ RootSearch.AllFit value guess.length tried ∧
      settings.budget ≤ o.evaluations ∧ budget = settings.budget ∧ evaluations = o.evaluations
  unacceptable_iff (length tolerance : F) :
    result = .error (.unacceptableRoot length tolerance) ↔
      violations guess parameters reals settings = [] ∧
      RootSearch.AllFit value guess.length tried ∧ o.evaluations < settings.budget ∧
      ¬ norm (value o.point) ≤ settings.functionTolerance ∧
      length = norm (value o.point) ∧ tolerance = settings.functionTolerance
  ok_iff (root : Root F) : result = .ok root ↔
      violations guess parameters reals settings = [] ∧
      RootSearch.AllFit value guess.length tried ∧ o.evaluations < settings.budget ∧
      norm (value o.point) ≤ settings.functionTolerance ∧
      root = {
        point := o.point, norm := norm (value o.point), evaluations := o.evaluations
        jacobians := o.jacobians, iterations := o.iterations, termination := o.termination }

theorem classified {value : List F → List F} {c : Account F} {o : RootSearch.Outcome F}
    (parameters reals : List F) (report : RootSearch.Report settings.search value guess c o) :
    Classified settings guess parameters reals value c.tried o (judge settings guess.length
      (violations guess parameters reals settings).head?
      (RootSearch.firstUnfit value guess.length c.tried) o) := by
  cases violated : violations guess parameters reals settings with
  | cons cause rest => constructor <;> simp [judge, violated, eq_comm]
  | nil =>
    cases unfit : RootSearch.firstUnfit value guess.length c.tried with
    | some actual =>
      have fits : ¬ RootSearch.AllFit value guess.length c.tried := by
        simp [RootSearch.allFit_iff, unfit]
      constructor <;> simp [judge, violated, fits, unfit, and_comm, eq_comm]
    | none =>
      have fits := RootSearch.allFit_iff.mpr unfit
      by_cases spent : settings.budget ≤ o.evaluations
      · have used : ¬o.evaluations < settings.budget := Nat.not_lt.mpr spent
        constructor <;> simp [judge, violated, fits, unfit, spent, used, eq_comm]
      · have left : o.evaluations < settings.budget := Nat.lt_of_not_le spent
        by_cases short : norm o.residual ≤ settings.functionTolerance <;> constructor <;>
          simp [judge, violated, fits, unfit, ← report.residual, spent, left, short, eq_comm]

/-- A solve of total equations, and the search that it depends on. -/
theorem exists_judged [SoundComparisons F] {f : List (Dual F) → List (Dual F) → List (Dual F)}
    (computes : equations.Computes data guess.length parameters.length f)
    (settings : Settings F) : ∃ searched o events,
      Yields (RootSearch.search settings.search (equations.atParameters data parameters).problem
        guess) searched o ∧
      RootSearch.Report settings.search (residualAt f parameters) guess (Journal.account searched)
        o ∧
      Yields (findRoot equations guess parameters data settings).run events
        (judge settings guess.length (violations guess parameters data.reals settings).head?
          (RootSearch.firstUnfit (residualAt f parameters) guess.length
            (Journal.account searched).tried) o) ∧
      (violations guess parameters data.reals settings ≠ [] → events = #[]) := by
  have restricted := computes.atParameters (y := parameters) rfl
  obtain ⟨searched, o, ran, course⟩ := RootSearch.exists_course restricted.isSquare settings.search
  have report := course.report restricted.isSquare
  cases violated : violations guess parameters data.reals settings with
  | nil =>
    obtain ⟨events, solved⟩ :=
      findRoot_of_admitted (congrArg List.head? violated) restricted ran report
    exact ⟨searched, o, events, ran, report, solved, fun some => absurd rfl some⟩
  | cons cause rest =>
    exact ⟨searched, o, #[], ran, report,
      findRoot_of_violation (congrArg List.head? violated), fun _ => rfl⟩

/-- A solve of total equations has exactly one of its outcomes, which the arguments, the points that
the search tried and the outcome of the search decide. An accepted root is one, up to the tolerance,
and the residual that is evaluated once more at the end is the one that the search ended with. -/
theorem findRoot_classified [SoundComparisons F]
    {f : List (Dual F) → List (Dual F) → List (Dual F)}
    (computes : equations.Computes data guess.length parameters.length f)
    (settings : Settings F) : ∃ searched o events result,
      Yields (RootSearch.search settings.search (equations.atParameters data parameters).problem
        guess) searched o ∧
      Yields (findRoot equations guess parameters data settings).run events result ∧
      Classified settings guess parameters data.reals (residualAt f parameters)
        (Journal.account searched).tried o result ∧
      (Journal.account searched).tried.head? = some guess ∧
      (violations guess parameters data.reals settings ≠ [] → events = #[]) ∧
      (∀ root, result = .ok root → root.point.length = guess.length ∧
        root.norm = norm (residualAt f parameters root.point) ∧
        root.norm ≤ settings.functionTolerance ∧
        root.evaluations < settings.budget) ∧
      (RootSearch.AllFit (residualAt f parameters) guess.length (Journal.account searched).tried →
        (residualAt f parameters o.point).length = guess.length ∧
        residualAt f parameters o.point = o.residual) := by
  obtain ⟨searched, o, events, ran, report, solved, silent⟩ := exists_judged computes settings
  have table := classified parameters data.reals report
  refine ⟨searched, o, events, _, ran, solved, table, report.head_tried, silent, ?_, ?_⟩
  · intro root accepted
    obtain ⟨-, -, left, short, rfl⟩ := (table.ok_iff root).mp accepted
    exact ⟨report.length, rfl, short, left⟩
  · intro fits
    exact ⟨fits _ report.mem_tried, report.residual.symm⟩

/-- At an accepted root there are as many unknowns and as many residuals as in the guess, and these
are not none. -/
theorem shape_of_findRoot_ok [SoundComparisons F]
    {f : List (Dual F) → List (Dual F) → List (Dual F)} {root : Root F} {journal last : Journal F}
    (computes : equations.Computes data guess.length parameters.length f)
    (found : (findRoot equations guess parameters data settings).run.run.run journal =
      (.ok (.ok root), last)) :
    guess ≠ [] ∧ root.point.length = guess.length ∧
      (residualAt f parameters root.point).length = guess.length := by
  obtain ⟨searched, o, events, -, report, solved, -⟩ := exists_judged computes settings
  have table := classified parameters data.reals report
  have accepted := Except.ok.inj (congrArg Prod.fst ((solved journal).symm.trans found))
  obtain ⟨admitted, fits, -, -, rfl⟩ := (table.ok_iff root).mp accepted
  refine ⟨?_, report.length, fits _ report.mem_tried⟩
  rintro rfl
  simp [violations] at admitted

/-- Unknowns less parameters. -/
def difference (unknowns parameters : List (Dual F)) : List (Dual F) :=
  unknowns.zipWith (· - ·) parameters

/-- The equations whose root is the parameters. -/
def differences : Equations F where
  residual _ unknowns parameters := .ok (difference unknowns parameters)

/-- A solve of `x - 2 = 0` on machine floats. -/
theorem findRoot_classified_differences :
    (differences (F := Float)).Computes {} 1 1 difference ∧ ∃ searched o events result,
      Yields (RootSearch.search (Settings.search ⟨1e-10, 1e-6, 1000⟩)
        (differences.atParameters {} [2]).problem ([1] : List Float)) searched o ∧
      Yields (findRoot differences [1] [2] {} ⟨1e-10, 1e-6, 1000⟩).run events result ∧
      Classified ⟨1e-10, 1e-6, 1000⟩ [1] [2] [] (residualAt difference [2])
        (Journal.account searched).tried o result ∧
      (Journal.account searched).tried.head? = some [1] := by
  have computes : (differences (F := Float)).Computes {} [(1 : Float)].length [(2 : Float)].length
      difference := fun _ _ _ _ => rfl
  obtain ⟨searched, o, events, result, ran, solved, table, head, -⟩ :=
    findRoot_classified computes ⟨1e-10, 1e-6, 1000⟩
  exact ⟨computes, searched, o, events, result, ran, solved, table, head⟩

end Solve

end ImplicitDiff.Solver
