import ImplicitDiff.Proofs.Derivative.Directions
import ImplicitDiff.Proofs.Tape.Counters
import ImplicitDiff.Proofs.Tape.Order

/-! # Runs that are too long for a tape

A sum of a tracked number with itself keeps two operands. With the `2 ^ 31`-st of them the count of
operands leaves the range of words, and the last sum is read back as if it had none. No fault tells
of that: the run succeeds, and a sweep from the sum clears the adjoint there, hands nothing on and
gives zeros.
-/

namespace ImplicitDiff

variable {F : Type}

/-! ## A sweep that hands nothing on -/

section Sweep

variable [Zero F] [Add F] [Mul F] [BEq F]

/-- Adjoints that are all zero stay so. -/
theorem Entry.Within.propagate_zeros (zero : ((0 : F) == 0) = true) {e : Entry F} {low size : Nat}
    (within : e.Within low size) :
    e.propagate (Array.replicate size (0 : F)) = .ok (Array.replicate size 0) := by
  cases e with
  | linear result terms =>
    have inside : result.toNat < size := within.2.1
    simp only [propagate, Array.getElem?_replicate, inside, if_true, fetch, pure_bind, zero]
    rfl
  | node n =>
    have bound : n.firstOutput.toNat + n.outputs ≤ (Array.replicate size (0 : F)).size := by
      rw [Array.size_replicate]
      exact within.2.1
    have blank (k : Nat) : adjointAt (Array.replicate size (0 : F)) k = 0 := by
      rw [adjointAt, Array.getElem?_replicate]
      split_ifs <;> rfl
    simp only [propagate, Node.propagate, mapM_fetch bound, pure_bind, blank, List.all_map]
    exact if_pos (List.all_eq_true.mpr fun _ _ => zero)

/-- If the operands of the last statement are the first ones past the range of words, a sweep from
its variable gives zeros. -/
theorem Tape.Recorded.sweep_of_full (zero : ((0 : F) == 0) = true) {t : Tape F}
    {history : List (Record F)} (recorded : t.Recorded history) (terms : List (Index × F))
    (full : t.multipliers.size + (Record.linear terms).tracked = 2 ^ 32)
    (room : t.size.toNat + 1 < 2 ^ 32) {w : F} (seen : (0 + w == 0) = false) :
    (t.push terms).sweep [(t.size, w)] = .ok (Array.replicate (t.size.toNat + 1) 0) := by
  have size : (t.push terms).size.toNat = t.size.toNat + 1 :=
    (UInt32.toNat_add t.size 1).trans (Nat.mod_eq_of_lt room)
  have varies := ne_constant_of_room room
  have inside : t.size.toNat < (Array.replicate (t.size.toNat + 1) (0 : F)).size := by
    rw [Array.size_replicate]
    exact Nat.lt_succ_self _
  have sown : (t.push terms).seed [(t.size, w)] =
      .ok ((Array.replicate (t.size.toNat + 1) 0).set t.size.toNat (0 + w) inside) := by
    rw [seed, size]
    refine (bind_pure _).trans ?_
    change deposit _ t.size w = _
    rw [deposit, if_neg varies, accumulate, dif_pos inside, Array.getElem_replicate]
  have cleared : (Entry.linear t.size []).propagate
      ((Array.replicate (t.size.toNat + 1) (0 : F)).set t.size.toNat (0 + w) inside) =
        .ok (Array.replicate (t.size.toNat + 1) 0) := by
    simp only [Entry.propagate, Array.getElem?_set_self, fetch, pure_bind, seen, List.foldlM_nil]
    refine congrArg Except.ok (Array.ext_getElem? fun k => ?_)
    rw [Array.getElem?_setIfInBounds, Array.getElem?_set, Array.getElem?_replicate]
    split_ifs <;> simp_all
  -- The sweep meets the emptied statement first, and after it nothing but zeros.
  rw [sweep, sown, recorded.stored.entries_of_full terms full, List.reverse_append]
  change (Entry.linear t.size []).propagate _ >>= _ = _
  rw [cleared]
  refine foldlM_fixed fun e member => ?_
  obtain ⟨low, within⟩ := recorded.inOrder e (List.mem_reverse.mp member)
  exact (within.mono (Nat.le_succ _)).propagate_zeros zero

end Sweep

/-! ## Sums of registers with themselves -/

/-- The program adds the register `i` to itself, `n` times over, and at last the register `j`. -/
def Program.sums (n : Nat) (i j : Register) : Program F :=
  List.replicate n (.operate .add i i) ++ [.operate .add j j]

theorem getElem?_push_of_eq_some {T : Type} {registers : Array T} {k : Register} {a : T}
    (found : registers[k]? = some a) (c : T) : (registers.push c)[k]? = some a := by
  have inside := (Array.getElem?_eq_some_iff.mp found).1
  rwa [Array.getElem?_push_lt inside, ← Array.getElem?_eq_getElem inside]

/-- A function that goes on from the registers of `before` with sums and gives the last of them. -/
def Function.lastSum (before : Program F) (n : Nat) (i j : Register) : Function F where
  program := before ++ Program.sums n i j
  outputs := [.always (before.length + n)]

/-- There are `n` registers more than before. -/
structure Longer {T : Type} (registers last : Array T) (n : Nat) : Prop where
  size : last.size = registers.size + n
  kept {k : Register} {a : T} : registers[k]? = some a → last[k]? = some a

namespace Longer

variable {T : Type} {registers last : Array T} {n : Nat} {c : T}

theorem of_push (longer : Longer (registers.push c) last n) : Longer registers last (n + 1) where
  size := by
    rw [longer.size, Array.size_push]
    omega
  kept found := longer.kept (getElem?_push_of_eq_some found c)

theorem getElem?_push (longer : Longer registers last n) (c : T) :
    (last.push c)[registers.size + n]? = some c := by
  rw [← longer.size, Array.getElem?_push_size]

end Longer

section Run

variable [Arith F]

section Pure

variable {T : Type} {M : Type → Type} [Monad M] [LawfulMonad M] [MonadExceptOf Fault M]
  [Carrier F T M] {registers : Array T} {i : Register} {a c : T}

theorem Program.runFrom_append (inputs : Inputs F T) (registers : Array T)
    (before after : Program F) :
    (runFrom inputs registers (before ++ after) : M (Array T)) =
      runFrom inputs registers before >>= fun middle => runFrom inputs middle after :=
  List.foldlM_append

theorem Program.run_append (inputs : Inputs F T) (before after : Program F) :
    (run inputs (before ++ after) : M (Array T)) =
      run inputs before >>= fun registers => runFrom inputs registers after :=
  runFrom_append inputs #[] before after

theorem Instruction.eval_add (inputs : Inputs F T) (found : registers[i]? = some a) :
    ((Instruction.operate .add i i).eval inputs registers : M T) = Carrier.operate .add a a := by
  rw [eval, found]
  change pure a >>= (fun left => pure a >>= fun right => _) = _
  rw [pure_bind, pure_bind]

/-- Sums without effects. -/
theorem Program.runFrom_replicate (inputs : Inputs F T) (found : registers[i]? = some a)
    (sum : Carrier.operate .add a a = (pure c : M T)) (n : Nat) :
    ∃ last, Longer registers last n ∧
      (runFrom inputs registers (List.replicate n (.operate .add i i)) : M (Array T)) =
        pure last := by
  induction n generalizing registers with
  | zero => exact ⟨registers, ⟨rfl, id⟩, rfl⟩
  | succ n ih =>
    obtain ⟨last, longer, ran⟩ := ih (getElem?_push_of_eq_some found c)
    refine ⟨last, longer.of_push, ?_⟩
    rw [List.replicate_succ, runFrom_cons, Instruction.eval_add inputs found, sum, pure_bind, ran]

theorem Output.select_always {k : Register} (found : registers[k]? = some a) :
    (Output.select registers [.always k] : M (List T)) = pure [a] := by
  rw [select, List.foldlM_cons]
  change (fetch registers[k]? >>= fun c => pure ([] ++ [c])) >>= _ = _
  rw [found]
  change (pure a >>= fun c => pure ([] ++ [c])) >>= _ = _
  rw [pure_bind, pure_bind]
  rfl

theorem Function.eval_lastSum (inputs : Inputs F T) {before : Program F}
    (started : (before.run inputs : M (Array T)) = pure registers)
    (size : registers.size = before.length) (found : registers[i]? = some a)
    (sum : Carrier.operate .add a a = (pure c : M T)) (n : Nat) :
    ((lastSum before n i i).eval inputs : M (List T)) = pure [c] := by
  obtain ⟨all, longer, ran⟩ := Program.runFrom_replicate inputs found sum n
  have whole : (Program.run inputs (before ++ Program.sums n i i) : M (Array T)) =
      pure (all.push c) := by
    rw [Program.run_append, started, pure_bind, Program.sums, Program.runFrom_append, ran,
      pure_bind, Program.runFrom_cons, Instruction.eval_add inputs (longer.kept found), sum,
      pure_bind]
    rfl
  change Program.run inputs (before ++ Program.sums n i i) >>= _ = _
  rw [whole, pure_bind]
  exact Output.select_always (size ▸ longer.getElem?_push c)

end Pure

section Tracked

variable {registers : Array (Traced F)} {i j : Register} {a b : Traced F} {s : Recording F}

/-- The operands of the sum of a traced number with itself. -/
def Traced.twice (a : Traced F) : List (Index × F) := [(a.index, 1), (a.index, 1)]

theorem Traced.tracked_twice (varies : a.index ≠ Index.constant) :
    (Record.linear a.twice).tracked = 2 := by
  simp [twice, Record.tracked, varies]

theorem Traced.operate_add (varies : a.index ≠ Index.constant) (t : Tape F) (journal : Journal F) :
    (Carrier.operate .add a a : RecordM F (Traced F)).run.run ⟨some t, journal⟩ =
      (.ok ⟨a.value + a.value, t.size⟩, ⟨some (t.push a.twice), journal⟩) := by
  have tracked : ¬ ∀ term ∈ a.twice, term.1 = Index.constant := by simpa [twice] using varies
  change (record (a.value + a.value) a.twice).run.run _ = _
  rw [record_of_tracked _ tracked]
  rfl

theorem Traced.operate_add_constant (c : F) :
    (Carrier.operate .add (constant c) (constant c) : RecordM F (Traced F)) =
      pure (constant (c + c)) := by
  have fixed : ∀ term ∈ [(Index.constant, (1 : F)), (Index.constant, 1)],
      term.1 = Index.constant := by simp
  exact record_of_constant (c + c) fixed

/-- The recording went on with `n` variables, and kept two operands for each of them. -/
structure Recording.Doubles (s t : Recording F) (n : Nat) : Prop where
  places : t.tape.size.toNat = s.tape.size.toNat + n
  operands : t.tape.multipliers.size = s.tape.multipliers.size + 2 * n

/-- Sums of a tracked number record one variable and two operands each. -/
theorem Program.run_replicate (inputs : Inputs F (Traced F)) (found : registers[i]? = some a)
    (below : a.index < s.tape.size) {n : Nat} (room : s.Room n) :
    ∃ all t, Longer registers all n ∧ s.Doubles t n ∧ ∀ journal,
      (runFrom inputs registers (List.replicate n (.operate .add i i)) :
        RecordM F (Array (Traced F))).run.run ⟨some s.tape, journal⟩ =
          (.ok all, ⟨some t.tape, journal⟩) := by
  induction n generalizing registers s with
  | zero => exact ⟨registers, s, ⟨rfl, id⟩, ⟨rfl, rfl⟩, fun _ => rfl⟩
  | succ n ih =>
    have enough : s.Room 1 := room.weaken (Nat.le_add_left ..)
    have varies := s.ne_constant below
    have known : ∀ term ∈ a.twice, s.tape.Knows term.1 := by simp [Traced.twice, Tape.Knows, below]
    let next := s.push a.twice known le_rfl enough
    have grows : next.tape.size.toNat = s.tape.size.toNat + 1 :=
      (s.gains_push known le_rfl enough).size_eq
    have shares : next.tape.multipliers.size = s.tape.multipliers.size + 2 := by
      rw [← Traced.tracked_twice varies]
      exact Tape.size_push ..
    have later : a.index < next.tape.size := by
      rw [UInt32.lt_iff_toNat_lt] at below ⊢
      omega
    obtain ⟨all, t, longer, doubles, ran⟩ := ih
      (s := next) (getElem?_push_of_eq_some found ⟨a.value + a.value, s.tape.size⟩) later
      (s.room_push known le_rfl (Nat.add_comm n 1 ▸ room) enough)
    obtain ⟨places, operands⟩ := doubles
    refine ⟨all, t, longer.of_push, ⟨by omega, by omega⟩, fun journal => ?_⟩
    rw [List.replicate_succ, runFrom_cons, Instruction.eval_add inputs found]
    exact (run_bind_of_ok (Traced.operate_add varies _ journal)).trans (ran journal)

/-- The last of `2 ^ 31` sums of tracked numbers is on the tape, but a sweep from it gives zeros. -/
theorem Program.run_lastSum (inputs : Inputs F (Traced F)) {before : Program F} {start : Tape F}
    (started : ∀ journal, (before.run inputs : RecordM F (Array (Traced F))).run.run
      ⟨some start, journal⟩ = (.ok registers, ⟨some s.tape, journal⟩))
    (first : registers[i]? = some a) (second : registers[j]? = some b)
    (early : a.index < s.tape.size) (below : b.index < s.tape.size)
    (blank : s.tape.multipliers.size = 0) {n : Nat} (full : 2 * (n + 1) = 2 ^ 32)
    (room : s.tape.size.toNat + n + 1 < 2 ^ 32) (zero : ((0 : F) == 0) = true) :
    ∃ all output tape, Longer registers all n ∧ output.value = b.value + b.value ∧
      (∀ journal, (Program.run inputs (before ++ sums n i j) :
        RecordM F (Array (Traced F))).run.run ⟨some start, journal⟩ =
          (.ok (all.push output), ⟨some tape, journal⟩)) ∧
      ∀ w : F, (0 + w == 0) = false → tape.sweep (seedsOf [output] [w]) =
        .ok (Array.replicate (s.tape.size.toNat + n + 1) 0) := by
  obtain ⟨all, t, longer, ⟨places, operands⟩, ran⟩ :=
    run_replicate (n := n) inputs first early ⟨by omega, by omega⟩
  rw [blank] at operands
  have varies := s.ne_constant below
  have tracked : t.tape.size ≠ Index.constant := ne_constant_of_room (by omega)
  have shares := Traced.tracked_twice varies
  refine ⟨all, ⟨b.value + b.value, t.tape.size⟩, t.tape.push b.twice, longer, rfl,
    fun journal => ?_, fun w seen => ?_⟩
  · rw [run_append]
    refine (run_bind_of_ok (started journal)).trans ?_
    rw [sums, runFrom_append]
    refine (run_bind_of_ok (ran journal)).trans ?_
    rw [runFrom_cons, Instruction.eval_add inputs (longer.kept second)]
    exact run_bind_of_ok (Traced.operate_add varies _ journal)
  · have seeds : seedsOf [⟨b.value + b.value, t.tape.size⟩] [w] = [(t.tape.size, w)] := by
      simp [seedsOf, Traced.isTracked, tracked]
    rw [seeds, t.recorded.sweep_of_full zero b.twice (by omega) (by omega) seen, places]

theorem Function.eval_lastSum_of_full (inputs : Inputs F (Traced F)) {before : Program F}
    {start : Tape F}
    (started : ∀ journal, (before.run inputs : RecordM F (Array (Traced F))).run.run
      ⟨some start, journal⟩ = (.ok registers, ⟨some s.tape, journal⟩))
    (size : registers.size = before.length) (found : registers[i]? = some a)
    (below : a.index < s.tape.size) (blank : s.tape.multipliers.size = 0) {n : Nat}
    (full : 2 * (n + 1) = 2 ^ 32) (room : s.tape.size.toNat + n + 1 < 2 ^ 32)
    (zero : ((0 : F) == 0) = true) :
    ∃ output tape, output.value = a.value + a.value ∧
      (∀ journal, ((lastSum before n i i).eval inputs : RecordM F (List (Traced F))).run.run
        ⟨some start, journal⟩ = (.ok [output], ⟨some tape, journal⟩)) ∧
      ∀ w : F, (0 + w == 0) = false → ∀ k ≤ s.tape.size.toNat,
        pullBack tape k [output] [w] = .ok (List.replicate k 0) := by
  obtain ⟨all, output, tape, longer, value, ran, swept⟩ :=
    Program.run_lastSum inputs started found found below below blank full room zero
  refine ⟨output, tape, value, fun journal => ?_, fun w seen k few => ?_⟩
  · refine (run_bind_of_ok (ran journal)).trans ?_
    rw [show (lastSum before n i i).outputs = [.always (registers.size + n)] by rw [size]; rfl,
      Output.select_always (longer.getElem?_push output)]
    rfl
  · change (tape.sweep (seedsOf [output] [w]) >>= fun adjoints =>
      pure (adjoints.toList.take k)) = _
    rw [swept w seen]
    change Except.ok ((Array.replicate _ (0 : F)).toList.take k) = _
    rw [Array.toList_replicate, List.take_replicate, Nat.min_eq_left (by omega)]

end Tracked

end Run

end ImplicitDiff
