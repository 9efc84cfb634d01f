import Mathlib.Tactic
import ImplicitDiff.Proofs.RootSearch.Shape

/-! # Right-hand sides with several columns

All columns of a right-hand side share one factorization and pass through one buffer. Each column
writes over what the last one left there, and its solution goes into its own column of the result.
So the columns do not mix, and each is solved as it would be alone, to the last bit and in any
arithmetic.
-/

namespace ImplicitDiff

variable {F : Type} [Arith F]

omit [Arith F] in
/-- A vector lists its entries. -/
theorem map_getD_range [Zero F] (v : List F) : (List.range v.length).map (v.getD · 0) = v := by
  apply List.ext_getElem (by simp)
  intro i _ inside
  simp [inside]

omit [Arith F] in
private theorem set_map_range (f : Nat → F) (n k : Nat) (c : F) :
    ((List.range n).map f).set k c = (List.range n).map fun j => if j = k then c else f j := by
  apply List.ext_getElem (by simp)
  intro j _ _
  simp [List.getElem_set, eq_comm]

/-- The entries of a column in the first rows, zero where there is none. -/
def Rows.columnAt (b : Rows F) (rows j : Nat) : List F :=
  (List.range rows).map fun i => (b.getD i []).getD j 0

@[simp] theorem Rows.length_columnAt (b : Rows F) (rows j : Nat) :
    (b.columnAt rows j).length = rows := by
  simp [columnAt]

private theorem Rows.columnAt_nil (rows j : Nat) :
    columnAt ([] : Rows F) rows j = List.replicate rows 0 := by
  simp [columnAt]

private theorem Rows.columnAt_cons (row : List F) (b : Rows F) (rows j : Nat) :
    columnAt (row :: b) (rows + 1) j = row.getD j 0 :: columnAt b rows j := by
  simp [columnAt, List.range_succ_eq_map, Function.comp_def]

namespace Factors

/-- The solutions for the first columns of a right-hand side, side by side. -/
def solutions (factors : Factors F) (b : Rows F) (width : Nat) : Rows F :=
  (List.range factors.length).map fun i =>
    (List.range width).map fun j => (factors.solve (b.columnAt factors.length j)).getD i 0

theorem length_solutions (factors : Factors F) (b : Rows F) (width : Nat) :
    (factors.solutions b width).length = factors.length := by
  simp [solutions]

theorem length_of_mem_solutions {factors : Factors F} {b : Rows F} {width : Nat} {row : List F}
    (member : row ∈ factors.solutions b width) : row.length = width := by
  obtain ⟨i, -, rfl⟩ := List.mem_map.mp member
  simp

/-- A column of the solutions is the solution for that column. -/
theorem columnAt_solutions (factors : Factors F) (b : Rows F) {width j : Nat}
    (inside : j < width) : (factors.solutions b width).columnAt factors.length j =
      factors.solve (b.columnAt factors.length j) := by
  rw [← map_getD_range (factors.solve _), length_solve, Rows.columnAt]
  refine List.map_congr_left fun i below => ?_
  simp [solutions, List.mem_range.mp below, inside]

/-! ## What the loop holds after some columns -/

/-- The first `k` columns of the solutions, and zeros in the other columns. -/
def solutionsUpTo (factors : Factors F) (b : Rows F) (width k : Nat) : Rows F :=
  (List.range factors.length).map fun i => (List.range width).map fun j =>
    if j < k then (factors.solve (b.columnAt factors.length j)).getD i 0 else 0

/-- What the first `k` columns leave in the buffer. -/
def bufferAfter (b : Rows F) (rows : Nat) : Nat → List F
  | 0 => List.replicate rows 0
  | k + 1 => b.columnAt rows k

/-- The result and the buffer after the first `k` columns. -/
def progress (factors : Factors F) (b : Rows F) (width k : Nat) : Rows F × List F :=
  (factors.solutionsUpTo b width k, bufferAfter b factors.length k)

@[simp] theorem length_bufferAfter (b : Rows F) (rows k : Nat) :
    (bufferAfter b rows k).length = rows := by
  cases k with
  | zero => exact List.length_replicate
  | succ k => exact b.length_columnAt rows k

/-- No column writes below the last row. -/
theorem bufferAfter_below (b : Rows F) (rows k i : Nat) (below : b.length ≤ i) :
    (bufferAfter b rows k).getD i 0 = 0 := by
  by_cases inside : i < rows
  · cases k with
    | zero => simp [bufferAfter]
    | succ k => simp [bufferAfter, Rows.columnAt, inside, below]
  · have outside : (bufferAfter b rows k).length ≤ i :=
      (length_bufferAfter ..).trans_le (not_lt.mp inside)
    exact List.getD_eq_default _ _ outside

private theorem eq_replicate_of_blank {buffer : List F} (blank : ∀ i, buffer.getD i 0 = 0) :
    buffer = List.replicate buffer.length 0 := by
  refine List.eq_replicate_iff.mpr ⟨rfl, fun c member => ?_⟩
  obtain ⟨i, inside, rfl⟩ := List.getElem_of_mem member
  exact (List.getD_eq_getElem _ _ inside).symm.trans (blank i)

theorem fetch_entry_eq_ok_iff {row : List F} {j : Nat} {c : F} :
    (fetch row[j]? : Except Fault F) = .ok c ↔ j < row.length ∧ c = row.getD j 0 := by
  rw [fetch_eq_ok_iff, List.getElem?_eq_some_iff, ← exists_prop]
  exact exists_congr fun inside => by rw [List.getD_eq_getElem _ _ inside, eq_comm]

/-- Gathering gives the entries of the column and nothing of what was in the buffer, provided that
nothing was below the last row. -/
theorem gather_eq_ok_iff {b : Rows F} {j : Nat} {buffer v : List F}
    (blank : ∀ i, b.length ≤ i → buffer.getD i 0 = 0) : gather j buffer b = .ok v ↔
      (∀ row ∈ b.take buffer.length, j < row.length) ∧ v = b.columnAt buffer.length j := by
  induction buffer generalizing b v with
  | nil =>
    change Except.ok [] = .ok v ↔ (∀ row ∈ b.take 0, j < row.length) ∧ v = []
    simp [eq_comm]
  | cons old buffer ih =>
    cases b with
    | nil =>
      -- The rows have run out, and the rest of the buffer was never written to.
      have zeros := eq_replicate_of_blank fun i => blank i (Nat.zero_le i)
      change Except.ok (old :: buffer) = .ok v ↔ _
      rw [Rows.columnAt_nil, ← zeros]
      simp [eq_comm]
    | cons row b =>
      have rest (v : List F) := ih (b := b) (v := v)
        fun i below => blank (i + 1) (Nat.succ_le_succ below)
      rw [gather, except_bind_eq_ok_iff, List.length_cons, List.take_succ_cons,
        List.forall_mem_cons, Rows.columnAt_cons]
      constructor
      · rintro ⟨c, found, ran⟩
        obtain ⟨others, below, last⟩ := except_bind_eq_ok_iff.mp ran
        obtain ⟨inside, rfl⟩ := fetch_entry_eq_ok_iff.mp found
        obtain ⟨wide, rfl⟩ := (rest _).mp below
        exact ⟨⟨inside, wide⟩, (Except.ok.inj last).symm⟩
      · rintro ⟨⟨inside, wide⟩, rfl⟩
        exact ⟨_, fetch_entry_eq_ok_iff.mpr ⟨inside, rfl⟩,
          except_bind_eq_ok_iff.mpr ⟨_, (rest _).mpr ⟨wide, rfl⟩, rfl⟩⟩

omit [Arith F] in
private theorem scatter_eq_zipWith (j : Nat) {x : Rows F} {values : List F}
    (same : x.length = values.length) :
    scatter j x values = x.zipWith (fun row v => row.set j v) values := by
  induction x generalizing values with
  | nil => cases values <;> rfl
  | cons row x ih =>
    cases values with
    | nil => cases same
    | cons v values => exact congrArg (row.set j v :: ·) (ih (Nat.succ.inj same))

/-- Scattering the solution for one more column leaves the columns before as they are. -/
theorem scatter_solutionsUpTo (factors : Factors F) (b : Rows F) (width k : Nat) :
    scatter k (factors.solutionsUpTo b width k) (factors.solve (b.columnAt factors.length k)) =
      factors.solutionsUpTo b width (k + 1) := by
  have values := map_getD_range (factors.solve (b.columnAt factors.length k))
  rw [length_solve] at values
  rw [scatter_eq_zipWith k (by simp [solutionsUpTo, length_solve]), ← values, solutionsUpTo,
    List.zipWith_map, List.zipWith_self, solutionsUpTo]
  refine List.map_congr_left fun i _ => ?_
  rw [set_map_range]
  refine List.map_congr_left fun j _ => ?_
  obtain rfl | other := eq_or_ne j k
  · rw [if_pos rfl, if_pos (Nat.lt_succ_self j)]
  · have older : j < k + 1 ↔ j < k := by omega
    rw [if_neg other]
    exact if_congr older.symm rfl rfl

/-- **One column.** It succeeds if the rows are wide enough, and makes the next progress. -/
theorem solveColumn_eq_ok_iff (factors : Factors F) (b : Rows F) (width k : Nat)
    (s : Rows F × List F) : factors.solveColumn b (factors.progress b width k) k = .ok s ↔
      (∀ row ∈ b.take factors.length, k < row.length) ∧ s = factors.progress b width (k + 1) := by
  have gathers (v : List F) := gather_eq_ok_iff (j := k) (v := v)
    (bufferAfter_below b factors.length k)
  rw [progress, solveColumn, except_bind_eq_ok_iff, progress, ← scatter_solutionsUpTo]
  simp only [length_bufferAfter] at gathers
  constructor
  · rintro ⟨v, gathered, last⟩
    obtain ⟨wide, rfl⟩ := (gathers v).mp gathered
    exact ⟨wide, (Except.ok.inj last).symm⟩
  · rintro ⟨wide, rfl⟩
    exact ⟨_, (gathers _).mpr ⟨wide, rfl⟩, rfl⟩

/-- **Several columns**, one after the other. -/
theorem solveColumns_eq_ok_iff (factors : Factors F) (b : Rows F) (width k : Nat)
    (s : Rows F × List F) :
    (List.range k).foldlM (factors.solveColumn b) (factors.progress b width 0) = .ok s ↔
      (∀ row ∈ b.take factors.length, k ≤ row.length) ∧ s = factors.progress b width k := by
  induction k generalizing s with
  | zero =>
    change Except.ok _ = .ok s ↔ _
    simp [eq_comm]
  | succ k ih =>
    rw [List.range_succ, List.foldlM_append, except_bind_eq_ok_iff]
    simp only [ih, List.foldlM_cons, List.foldlM_nil, bind_pure]
    constructor
    · rintro ⟨_, ⟨-, rfl⟩, last⟩
      exact (solveColumn_eq_ok_iff ..).mp last
    · rintro ⟨wide, rfl⟩
      exact ⟨_, ⟨fun row member => Nat.le_of_lt (wide row member), rfl⟩,
        (solveColumn_eq_ok_iff ..).mpr ⟨wide, rfl⟩⟩

private theorem solutionsUpTo_zero (factors : Factors F) (b : Rows F) (width : Nat) :
    factors.solutionsUpTo b width 0 = List.replicate factors.length (List.replicate width 0) := by
  simp [solutionsUpTo]

private theorem solutionsUpTo_width (factors : Factors F) (b : Rows F) (width : Nat) :
    factors.solutionsUpTo b width width = factors.solutions b width := by
  refine List.map_congr_left fun i _ => List.map_congr_left fun j inside => ?_
  rw [if_pos (List.mem_range.mp inside)]

/-- The solutions for a right-hand side are those for its columns. They are found if each row that
belongs to a factor is as wide as the first one. -/
theorem solveRows_eq_ok_iff (factors : Factors F) (b x : Rows F) : factors.solveRows b = .ok x ↔
    (∀ row ∈ b.take factors.length, (b.head?.map List.length).getD 0 ≤ row.length) ∧
      x = factors.solutions b ((b.head?.map List.length).getD 0) := by
  have columns := factors.solveColumns_eq_ok_iff b ((b.head?.map List.length).getD 0)
    ((b.head?.map List.length).getD 0)
  rw [progress, solutionsUpTo_zero, bufferAfter] at columns
  rw [solveRows, except_bind_eq_ok_iff, ← solutionsUpTo_width]
  simp only [columns]
  constructor
  · rintro ⟨_, ⟨wide, rfl⟩, last⟩
    exact ⟨wide, (Except.ok.inj last).symm⟩
  · rintro ⟨wide, rfl⟩
    exact ⟨_, ⟨wide, rfl⟩, rfl⟩

/-- Unless they end in a fault, the solutions for a right-hand side are those for its columns. -/
theorem eq_solutions {factors : Factors F} {b x : Rows F} (solved : factors.solveRows b = .ok x) :
    x = factors.solutions b ((b.head?.map List.length).getD 0) :=
  ((solveRows_eq_ok_iff ..).mp solved).2

/-- A right-hand side with rows of one width, at least one of them if there are any factors, has
solutions of that width. -/
theorem solveRows_eq {factors : Factors F} {b : Rows F} {width : Nat}
    (nonempty : b = [] → factors = []) (wide : ∀ row ∈ b, row.length = width) :
    factors.solveRows b = .ok (factors.solutions b width) := by
  by_cases empty : b = []
  · obtain rfl := nonempty empty
    subst empty
    rfl
  have first : (b.head?.map List.length).getD 0 = width := by
    rw [List.head?_eq_some_head empty]
    exact wide _ (List.head_mem empty)
  rw [solveRows_eq_ok_iff, first]
  exact ⟨fun row member => (wide row (List.mem_of_mem_take member)).ge, rfl⟩

end Factors

/-- **Several columns are solved like each of them alone.** Together they have a solution if a
matrix has factors, and so has each right-hand side with one column. The solution is as wide as the
right-hand side, and its columns are the solutions for the columns of the right-hand side. -/
theorem Rows.IsSquare.solves_columnwise {a b : Rows F} {n k : Nat} (square : a.IsSquare n)
    (high : b.length = n) (wide : ∀ row ∈ b, row.length = k) :
    ∃ solutions, a.solveRows? b = .ok solutions ∧
      (∀ v, solutions = none ↔ a.solve? v = none) ∧
      ∀ x, solutions = some x → x.length = n ∧ (∀ row ∈ x, row.length = k) ∧
        ∀ j < k, a.solve? (b.columnAt n j) = some (x.columnAt n j) := by
  cases factored : a.factor? with
  | none =>
    refine ⟨none, by rw [solveRows?, factored], fun v => ?_, fun x found => (nomatch found)⟩
    rw [solve?, factored]
    exact ⟨fun _ => rfl, fun _ => rfl⟩
  | some factors =>
    have length : factors.length = n := (factor?_length factored).trans square.length
    have nonempty (empty : b = []) : factors = [] := by
      subst empty
      exact List.length_eq_zero_iff.mp (length.trans high.symm)
    refine ⟨some (factors.solutions b k), ?_, fun v => ?_, ?_⟩
    · rw [solveRows?, factored]
      dsimp only
      rw [Factors.solveRows_eq nonempty wide]
      rfl
    · rw [solve?, factored]
      exact ⟨fun none => (nomatch none), fun none => (nomatch none)⟩
    · rintro _ ⟨⟩
      refine ⟨(factors.length_solutions b k).trans length,
        fun row => Factors.length_of_mem_solutions, fun j inside => ?_⟩
      rw [solve?, factored, ← length, factors.columnAt_solutions b inside]
      rfl

/-- Three right-hand sides of equations whose rows have to be swapped. -/
theorem solves_columnwise_of_swap :
    Rows.IsSquare ([[0, 2], [1, 3]] : Rows Float) 2 ∧ ∃ x,
      Rows.solveRows? ([[0, 2], [1, 3]] : Rows Float) [[4, 2, 1], [5, 0, 7]] = .ok (some x) ∧
      x.length = 2 ∧ (∀ row ∈ x, row.length = 3) ∧ ∀ j < 3,
        Rows.solve? [[0, 2], [1, 3]] (Rows.columnAt [[4, 2, 1], [5, 0, 7]] 2 j) =
          some (x.columnAt 2 j) := by
  have square : Rows.IsSquare ([[0, 2], [1, 3]] : Rows Float) 2 := ⟨rfl, by simp⟩
  have solvable : (Rows.solve? ([[0, 2], [1, 3]] : Rows Float) [4, 5]).isSome = true := by
    decide +kernel
  obtain ⟨solutions, ran, none_iff, each⟩ :=
    square.solves_columnwise (b := [[4, 2, 1], [5, 0, 7]]) (k := 3) rfl (by simp)
  cases solutions with
  | none =>
    rw [(none_iff [4, 5]).mp rfl] at solvable
    cases solvable
  | some x => exact ⟨square, x, ran, each x rfl⟩

end ImplicitDiff
