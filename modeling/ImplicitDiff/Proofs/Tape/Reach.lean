import Mathlib.Tactic
import ImplicitDiff.Proofs.SpecialValues
import ImplicitDiff.Proofs.Tape.Order

/-! # What a sweep can reach

From its seeds a sweep reaches the operands of seeded variables, their operands, and so on. Of what
it does not reach it reads no multiplier and no row of a block, because the adjoint there stays the
zero that it was at first, and a zero is not handed on. So a branch of a computation that does not
matter to the seeds may hold infinite multipliers, or what is no number, and the adjoints are the
same to the last bit. All that is used of the arithmetic is that zero equals zero.
-/

namespace ImplicitDiff

variable {F : Type}

/-- The places that a sweep reaches: those of the seeds, and those of the operands of what it
reaches. -/
inductive Tape.Reaches (t : Tape F) (seeds : List (Index × F)) : Nat → Prop
  | seed {seed : Index × F} : seed ∈ seeds → seed.1 ≠ Index.constant →
      t.Reaches seeds seed.1.toNat
  | operand {e : Entry F} {equation : Nat × List (Index × F)} {term : Index × F} :
      e ∈ t.entries → equation ∈ e.equations → t.Reaches seeds equation.1 →
      term ∈ equation.2 → term.1 ≠ Index.constant → t.Reaches seeds term.1.toNat

/-- The entries define the same variables by the same operands. Those multipliers and rows are the
same that belong to variables in `reached`. -/
def Entry.AgreesOn (reached : Nat → Prop) : Entry F → Entry F → Prop
  | .linear result terms, .linear other others =>
    other = result ∧ others.map Prod.fst = terms.map Prod.fst ∧
      (reached result.toNat → others = terms)
  | .node n, .node m =>
    m.params = n.params ∧ m.firstOutput = n.firstOutput ∧ m.outputs = n.outputs ∧
      ∀ i, reached (n.firstOutput.toNat + i) → m.sensitivity[i]? = n.sensitivity[i]?
  | _, _ => False

/-- The operands of what is reached are reached. -/
def Entry.Closed (reached : Nat → Prop) (e : Entry F) : Prop :=
  ∀ equation ∈ e.equations, reached equation.1 →
    ∀ term ∈ equation.2, term.1 ≠ Index.constant → reached term.1.toNat

/-- What is reached lies in every set with the seeds in it that has the operands of its members. -/
theorem Tape.Reaches.within {t : Tape F} {seeds : List (Index × F)} {inside : Nat → Prop}
    (seeded : ∀ seed ∈ seeds, seed.1 ≠ Index.constant → inside seed.1.toNat)
    (closed : ∀ e ∈ t.entries, e.Closed inside) {k : Nat} (reached : t.Reaches seeds k) :
    inside k := by
  induction reached with
  | seed member varies => exact seeded _ member varies
  | operand member defines _ operand varies here =>
    exact closed _ member _ defines here _ operand varies

/-- What is not reached holds the zero that it held at first. -/
structure Silent [Zero F] (reached : Nat → Prop) (adjoints : Array F) : Prop where
  size_lt : adjoints.size < 2 ^ 32
  zero {k : Nat} {a : F} : ¬reached k → adjoints[k]? = some a → a = 0

namespace Silent

variable [Zero F] {reached : Nat → Prop} {adjoints next : Array F}

theorem set (silent : Silent reached adjoints) {k : Nat} {a : F} (allowed : reached k ∨ a = 0) :
    Silent reached (adjoints.setIfInBounds k a) where
  size_lt := by
    rw [Array.size_setIfInBounds]
    exact silent.size_lt
  zero {l b} missed held := by
    rw [Array.getElem?_setIfInBounds] at held
    split_ifs at held with here inside
    · cases held
      exact allowed.resolve_left (here ▸ missed)
    · exact silent.zero missed held

theorem clearFrom (silent : Silent reached adjoints) (first count : Nat) :
    Silent reached (ImplicitDiff.clearFrom adjoints first count) := by
  unfold ImplicitDiff.clearFrom
  induction List.range count generalizing adjoints with
  | nil => exact silent
  | cons i rest ih =>
    rw [List.foldl_cons]
    exact ih (silent.set (.inr rfl))

variable [Add F]

theorem accumulate (silent : Silent reached adjoints) {i : Index} {amount : F}
    (allowed : i ≠ Index.constant → reached i.toNat)
    (handed : ImplicitDiff.accumulate adjoints i amount = .ok next) : Silent reached next := by
  unfold ImplicitDiff.accumulate at handed
  split_ifs at handed with bound
  cases handed
  have varies : i ≠ Index.constant := by
    rintro rfl
    have small := silent.size_lt
    change 2 ^ 32 - 1 < adjoints.size at bound
    omega
  have same := silent.set (k := i.toNat) (a := adjoints[i.toNat] + amount)
    (.inl (allowed varies))
  rwa [Array.setIfInBounds, dif_pos bound] at same

theorem deposit (silent : Silent reached adjoints) {i : Index} {amount : F}
    (allowed : i ≠ Index.constant → reached i.toNat)
    (handed : ImplicitDiff.deposit adjoints i amount = .ok next) : Silent reached next := by
  unfold ImplicitDiff.deposit at handed
  split_ifs at handed
  · cases handed
    exact silent
  · exact silent.accumulate allowed handed

end Silent

section Sweep

variable [Zero F] [Add F] [Mul F] [BEq F] {reached : Nat → Prop} {adjoints next : Array F}

/-- What a row of a block hands on stays within what is reached. -/
theorem Silent.propagateRow (zero : ((0 : F) == 0) = true) (silent : Silent reached adjoints)
    {n : Node F} {row : List F} {output : Nat}
    (closed : reached output → ∀ term ∈ n.params.zip row, term.1 ≠ Index.constant →
      reached term.1.toNat)
    (handed : n.propagateRow adjoints row output = .ok next) : Silent reached next := by
  rw [Node.propagateRow, except_bind_eq_ok_iff] at handed
  obtain ⟨a, read, handed⟩ := handed
  split_ifs at handed with skipped
  · cases handed
    exact silent
  · have here : reached output := by
      by_contra missed
      exact skipped (silent.zero missed (fetch_eq_ok_iff.mp read) ▸ zero)
    exact foldlM_preserves
      (fun term member _ _ before => before.deposit (closed here term member)) silent handed

/-- What an entry hands on stays within what is reached. -/
theorem Silent.propagate (zero : ((0 : F) == 0) = true) (silent : Silent reached adjoints)
    {e : Entry F} (closed : e.Closed reached) (handed : e.propagate adjoints = .ok next) :
    Silent reached next := by
  cases e with
  | linear result terms =>
    rw [Entry.propagate, except_bind_eq_ok_iff] at handed
    obtain ⟨a, read, handed⟩ := handed
    split_ifs at handed with skipped
    · cases handed
      exact silent
    · have here : reached result.toNat := by
        by_contra missed
        exact skipped (silent.zero missed (fetch_eq_ok_iff.mp read) ▸ zero)
      have operands := closed _ (List.mem_singleton_self _) here
      exact foldlM_preserves (fun term member _ _ before => before.accumulate (operands term member))
        (silent.set (.inr rfl)) handed
  | node n =>
    rw [Entry.propagate, Node.propagate, except_bind_eq_ok_iff] at handed
    obtain ⟨held, -, handed⟩ := handed
    split_ifs at handed with skipped
    · cases handed
      exact silent
    · obtain ⟨middle, rows, cleared⟩ := except_bind_eq_ok_iff.mp handed
      cases cleared
      refine Silent.clearFrom (foldlM_preserves (fun row member _ _ before => ?_) silent rows) ..
      exact before.propagateRow zero (closed _ (List.mem_map_of_mem member))

omit [Add F] [Mul F] in
/-- Where nothing has arrived, it does not matter what would be done with an adjoint. -/
theorem Silent.skips (zero : ((0 : F) == 0) = true) (silent : Silent reached adjoints) {k : Nat}
    (missed : ¬reached k) (first second : F → Except Fault (Array F)) :
    (do
      let a ← fetch adjoints[k]?
      if a == 0 then pure adjoints else first a) =
    (do
      let a ← fetch adjoints[k]?
      if a == 0 then pure adjoints else second a) := by
  cases read : adjoints[k]? with
  | none => rfl
  | some a => simp only [silent.zero missed read, fetch, pure_bind, zero, if_true]

/-- A row that is not reached is not read. -/
theorem Silent.propagateRow_eq (zero : ((0 : F) == 0) = true) (silent : Silent reached adjoints)
    {n m : Node F} (params : m.params = n.params) {row other : List F} {output : Nat}
    (same : reached output → other = row) :
    m.propagateRow adjoints other output = n.propagateRow adjoints row output := by
  by_cases here : reached output
  · rw [same here, Node.propagateRow, Node.propagateRow, params]
  · exact silent.skips zero here _ _

/-- Multipliers and rows that are not reached are not read. -/
theorem Silent.propagate_eq (zero : ((0 : F) == 0) = true) (silent : Silent reached adjoints)
    {e other : Entry F} (agree : e.AgreesOn reached other) (closed : e.Closed reached) :
    other.propagate adjoints = e.propagate adjoints := by
  cases e with
  | linear result terms =>
    cases other with
    | node m => exact agree.elim
    | linear result' others =>
      obtain ⟨rfl, -, same⟩ := agree
      by_cases here : reached result'.toNat
      · rw [same here]
      · exact silent.skips zero here _ _
  | node n =>
    cases other with
    | linear => exact agree.elim
    | node m =>
      obtain ⟨params, first, outputs, same⟩ := agree
      have rows : List.Forall₂ (fun row other : List F × Nat => row ∈ n.sensitivity.zipIdx ∧
          other.2 = row.2 ∧ (reached (n.firstOutput.toNat + row.2) → other.1 = row.1))
          n.sensitivity.zipIdx m.sensitivity.zipIdx := by
        have lengths : m.sensitivity.length = n.sensitivity.length := outputs
        refine List.forall₂_iff_get.mpr ⟨by simp [lengths], fun i inside inside' => ?_⟩
        refine ⟨List.get_mem .., by simp, fun here => ?_⟩
        rw [List.length_zipIdx] at inside inside'
        simp only [List.get_eq_getElem, List.getElem_zipIdx, Nat.zero_add] at here ⊢
        have row := same i here
        rwa [List.getElem?_eq_getElem inside, List.getElem?_eq_getElem inside',
          Option.some_inj] at row
      have loops : ∀ held, Silent reached held →
          m.sensitivity.zipIdx.foldlM (fun adjoints row =>
            m.propagateRow adjoints row.1 (n.firstOutput.toNat + row.2)) held =
          n.sensitivity.zipIdx.foldlM (fun adjoints row =>
            n.propagateRow adjoints row.1 (n.firstOutput.toNat + row.2)) held := by
        refine fun held quiet => foldlM_congr ?_ ?_ rows quiet
        · rintro held ⟨row, i⟩ ⟨other, j⟩ quiet ⟨-, rfl, unread⟩
          exact quiet.propagateRow_eq zero params unread
        · rintro held ⟨row, i⟩ - next quiet ⟨member, -⟩ handed
          exact quiet.propagateRow zero (closed _ (List.mem_map_of_mem member)) handed
      simp only [Entry.propagate, Node.propagate, first, outputs, loops adjoints silent]

omit [Mul F] [BEq F] in
/-- A blank vector is silent, and seeds are reached. -/
theorem Tape.silent_of_seed (t : Tape F) {seeds : List (Index × F)}
    (sown : t.seed seeds = .ok next) : Silent (t.Reaches seeds) next := by
  refine foldlM_preserves (P := Silent (t.Reaches seeds))
    (fun seed member _ _ before => before.deposit (.seed member)) ⟨?_, ?_⟩ sown
  · rw [Array.size_replicate]
    exact UInt32.toNat_lt_size _
  · intro k a _ held
    rw [Array.getElem?_replicate] at held
    split_ifs at held
    exact (Option.some_inj.mp held).symm

/-- **Dead branches do not pollute a gradient.** Two tapes have the same statements and nodes, and
agree on the multipliers and the rows of everything that a list of seeds reaches. What they hold
elsewhere may differ in any way, infinite or no number at all. Then the sweeps from these seeds
give the same, and where one tape is in order and the seeds are places of it, they give an adjoint
for each variable. -/
theorem Tape.sweep_ignores_unreached (zero : ((0 : F) == 0) = true) {t u : Tape F}
    {seeds : List (Index × F)} (size : u.size = t.size)
    (agree : List.Forall₂ (Entry.AgreesOn (t.Reaches seeds)) t.entries u.entries) :
    u.sweep seeds = t.sweep seeds ∧
      (t.InOrder → (∀ seed ∈ seeds, t.Knows seed.1) →
        ∃ adjoints, t.sweep seeds = .ok adjoints ∧ adjoints.size = t.size.toNat) := by
  refine ⟨?_, fun ordered known => ordered.sweep_ok known⟩
  have closed : ∀ e ∈ t.entries, e.Closed (t.Reaches seeds) :=
    fun e member equation defines here term operand => .operand member defines here operand
  have related := List.rel_reverse ((List.forall₂_and_left _ _).mpr ⟨closed, agree⟩)
  have same : u.seed seeds = t.seed seeds := by rw [seed, seed, size]
  rw [sweep, sweep, same]
  cases sown : t.seed seeds with
  | error fault => rfl
  | ok start =>
    refine foldlM_congr ?_ ?_ related (t.silent_of_seed sown)
    · exact fun held e other silent both => silent.propagate_eq zero both.2 both.1
    · exact fun held e _ next silent both handed => silent.propagate zero both.1 handed

end Sweep

/-- Two inputs, a sum of them, a node with two outputs and a last statement. The second row of the
node and the last multiplier are `dead` to sweeps from the sum and from the first output. -/
def forked (live dead : F) : Tape F where
  statements := #[{ result := 2, stop := 2 },
    { result := 3, stop := 2,
      node := some
        { params := [0, 2], sensitivity := [[live, live], [dead, dead]], firstOutput := 3 } },
    { result := 5, stop := 3 }]
  multipliers := #[live, live, dead]
  operands := #[0, 1, 4]
  size := 6

theorem entries_forked (live dead : F) : (forked live dead).entries =
    [.linear 2 [(0, live), (1, live)],
      .node { params := [0, 2], sensitivity := [[live, live], [dead, dead]], firstOutput := 3 },
      .linear 5 [(4, dead)]] := rfl

private theorem inOrder_forked (live dead : F) : (forked live dead).InOrder := by
  rw [Tape.InOrder, entries_forked, List.forall_mem_cons, List.forall_mem_cons,
    List.forall_mem_singleton]
  exact ⟨⟨2, by simp [Entry.Within, forked]⟩, ⟨3, by simp [Entry.Within, Node.outputs, forked]⟩,
    ⟨5, by simp [Entry.Within, forked]⟩⟩

/-- The first four variables have no operands among the others. -/
theorem closed_forked (live dead : F) : ∀ e ∈ (forked live dead).entries, e.Closed (· < 4) := by
  rw [entries_forked]
  simp [Entry.Closed, Entry.equations, or_imp, forall_and]

private theorem agreesOn_forked {reached : Nat → Prop} (low : ∀ k, reached k → k < 4)
    (live dead other : F) : List.Forall₂ (Entry.AgreesOn reached)
      (forked live dead).entries (forked live other).entries := by
  rw [entries_forked, entries_forked]
  refine .cons ⟨rfl, rfl, fun _ => rfl⟩ (.cons ⟨rfl, rfl, rfl, ?_⟩ (.cons ⟨rfl, rfl, ?_⟩ .nil))
  · rintro (_ | _ | _) here
    · rfl
    · exact absurd (low _ here) (Nat.lt_irrefl 4)
    · rfl
  · exact fun here => absurd (low _ here) (by decide)

/-- What is no number in one of the tapes is zero in the other, and the sweeps are the same. -/
theorem forked_sweep_ignores_dead :
    (forked (2 : Float) (0 / 0)).sweep [(2, 1), (3, 7)] = (forked 2 0).sweep [(2, 1), (3, 7)] ∧
      ∃ adjoints, (forked (2 : Float) 0).sweep [(2, 1), (3, 7)] = .ok adjoints ∧
        adjoints.size = 6 := by
  have zero : ((0 : Float) == 0) = true := by decide +kernel
  have low (k : Nat) (reached : (forked (2 : Float) 0).Reaches [(2, 1), (3, 7)] k) : k < 4 :=
    reached.within (by simp) (closed_forked 2 0)
  have known : ∀ seed ∈ [((2 : Index), (1 : Float)), (3, 7)],
      (forked (2 : Float) 0).Knows seed.1 := by
    simp [Tape.Knows, forked]
  obtain ⟨same, finds⟩ := Tape.sweep_ignores_unreached zero (t := forked (2 : Float) 0)
    (u := forked 2 (0 / 0)) rfl (agreesOn_forked low 2 0 (0 / 0))
  exact ⟨same, finds (inOrder_forked 2 0) known⟩

end ImplicitDiff
