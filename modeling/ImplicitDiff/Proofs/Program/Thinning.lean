import ImplicitDiff.Proofs.Derivative.Agreement
import ImplicitDiff.Proofs.Program.Values
import ImplicitDiff.Proofs.Tape.Thinning

/-! # Inputs held constant

A run may hold some of its inputs constant and record the others. Beside the run that records all of
them it has the same values and takes the same branches, and its tape is the other one without the
variables that depend on constants alone. So the adjoints of the inputs that it records are the
same, to the last bit, whatever the arithmetic is; only the entries of the others are missing. The
words of the tape have to suffice for both runs: a tape that is too short for the longer one has
lost what the shorter one has kept.
-/

namespace ImplicitDiff

variable {F : Type}

/-! ## Two recordings -/

/-- A stage of two recordings, the first of which lacks some of the variables of the second. -/
structure Thinning (F : Type) where
  /-- What the run with fewer variables recorded. -/
  part : Recording F
  /-- What the run with all variables recorded. -/
  whole : Recording F
  /-- The place of each variable of the second tape on the first one. -/
  counterparts : List Index
  /-- The first tape is the second one without some variables. -/
  thinned : Thinned part.tape whole.tape counterparts

namespace Thinning

/-- Both recordings went on. -/
def Later (s t : Thinning F) : Prop := ∃ more, t.counterparts = s.counterparts ++ more

theorem Later.refl (s : Thinning F) : s.Later s := ⟨[], (List.append_nil _).symm⟩

theorem Later.trans {s t u : Thinning F} (first : s.Later t) (second : t.Later u) : s.Later u := by
  obtain ⟨more, grown⟩ := first
  obtain ⟨rest, longer⟩ := second
  exact ⟨more ++ rest, by rw [longer, grown, List.append_assoc]⟩

theorem known_iff (s : Thinning F) {i : Index} :
    s.whole.tape.Knows i ↔ i = Index.constant ∨ i.toNat < s.counterparts.length := by
  rw [s.thinned.length_eq, ← UInt32.lt_iff_toNat_lt]
  rfl

theorem Later.knows {s t : Thinning F} (after : s.Later t) {i : Index}
    (known : s.whole.tape.Knows i) : t.whole.tape.Knows i := by
  obtain ⟨more, grown⟩ := after
  rw [known_iff, grown, List.length_append]
  exact (s.known_iff.mp known).imp id (Nat.lt_add_right _)

private theorem Later.counterpart_eq {s t : Thinning F} (after : s.Later t) {i : Index}
    (known : s.whole.tape.Knows i) :
    counterpart t.counterparts i = counterpart s.counterparts i := by
  obtain ⟨more, grown⟩ := after
  have short := t.thinned.length_lt
  rw [grown] at short ⊢
  exact counterpart_append short (s.known_iff.mp known)

/-- The place that the next variable takes is its own counterpart's place. -/
theorem counterpart_concat (s : Thinning F) (i : Index) :
    counterpart (s.counterparts ++ [i]) s.whole.tape.size = i := by
  have place := s.thinned.length_eq
  rw [counterpart, ← place, List.getD_append_right _ _ _ _ le_rfl, Nat.sub_self]
  rfl

/-- A counterpart is a constant or on the first tape. -/
theorem knows_counterpart (s : Thinning F) (i : Index) :
    s.part.tape.Knows (counterpart s.counterparts i) := by
  rw [counterpart, List.getD_eq_getElem?_getD]
  cases found : s.counterparts[i.toNat]? with
  | none => exact .inl rfl
  | some j =>
    rw [Option.getD_some, Tape.Knows, or_iff_not_imp_left]
    intro kept
    exact UInt32.lt_iff_toNat_lt.mpr (s.thinned.lt_size found kept)

/-- Both tapes have room for so many more statements. -/
structure Room (spare : Nat) (s : Thinning F) : Prop where
  part : s.part.Room spare
  whole : s.whole.Room spare

theorem Room.weaken {s : Thinning F} {spare fewer : Nat} (room : s.Room spare)
    (less : fewer ≤ spare) : s.Room fewer :=
  ⟨room.part.weaken less, room.whole.weaken less⟩

/-- Two computations that record, one on each tape. They end in the same fault, or both succeed and
leave the tapes of a later stage. The journals stay as they are. -/
def Runs {α β : Type} (cost : Nat) (related : Thinning F → α → β → Prop) (s : Thinning F)
    (m : RecordM F α) (n : RecordM F β) : Prop :=
  ∀ spare, s.Room (cost + spare) →
    (∃ fault t u, (∀ journal, m.run.run ⟨some s.part.tape, journal⟩ =
        (.error fault, ⟨t, journal⟩)) ∧
      ∀ journal, n.run.run ⟨some s.whole.tape, journal⟩ = (.error fault, ⟨u, journal⟩)) ∨
    ∃ t a b, s.Later t ∧ t.Room spare ∧ related t a b ∧
      (∀ journal, m.run.run ⟨some s.part.tape, journal⟩ =
        (.ok a, ⟨some t.part.tape, journal⟩)) ∧
      ∀ journal, n.run.run ⟨some s.whole.tape, journal⟩ = (.ok b, ⟨some t.whole.tape, journal⟩)

theorem Runs.bind {α β γ δ : Type} {first : Thinning F → α → β → Prop}
    {second : Thinning F → γ → δ → Prop} {cost more : Nat} {s : Thinning F} {m : RecordM F α}
    {n : RecordM F β} {f : α → RecordM F γ} {g : β → RecordM F δ} (runs : Runs cost first s m n)
    (next : ∀ t a b, s.Later t → first t a b → Runs more second t (f a) (g b)) :
    Runs (cost + more) second s (m >>= f) (n >>= g) := by
  intro spare room
  rw [Nat.add_assoc] at room
  obtain ⟨fault, t, u, ended, stopped⟩ | ⟨t, a, b, after, left, here, ran, went⟩ := runs _ room
  · refine .inl ⟨fault, t, u, fun journal => ?_, fun journal => ?_⟩
    · exact run_bind_of_error (ended journal)
    · exact run_bind_of_error (stopped journal)
  · obtain ⟨fault, u, v, ended, stopped⟩ | ⟨u, c, d, later, rest, there, onward, along⟩ :=
      next t a b after here _ left
    · refine .inl ⟨fault, u, v, fun journal => ?_, fun journal => ?_⟩
      · exact (run_bind_of_ok (ran journal)).trans (ended journal)
      · exact (run_bind_of_ok (went journal)).trans (stopped journal)
    · refine .inr ⟨u, c, d, after.trans later, rest, there, fun journal => ?_, fun journal => ?_⟩
      · exact (run_bind_of_ok (ran journal)).trans (onward journal)
      · exact (run_bind_of_ok (went journal)).trans (along journal)

end Thinning

/-- Runs that record fewer variables beside runs that record all of them. -/
def thinning (F : Type) : Coupling (RecordM F) (RecordM F) where
  Stage := Thinning F
  Later := Thinning.Later
  Runs := Thinning.Runs
  later_refl := .refl
  later_trans := .trans
  pure here _ room := .inr ⟨_, _, _, .refl _, room.weaken (Nat.le_add_left ..), here,
    fun _ => rfl, fun _ => rfl⟩
  fault _ _ fault _ _ := .inl ⟨fault, _, _, fun _ => rfl, fun _ => rfl⟩
  weaken runs less spare room := runs spare (room.weaken (Nat.add_le_add_right less _))
  bind := Thinning.Runs.bind

namespace Thinning

/-- Two traced numbers with the same value, the first of which stands for the second one on the
tape with fewer variables. -/
structure Matches (s : Thinning F) (a b : Traced F) : Prop where
  value : a.value = b.value
  known : s.whole.tape.Knows b.index
  place : a.index = counterpart s.counterparts b.index

variable {s : Thinning F} {a b : Traced F}

theorem Matches.later {t : Thinning F} (same : s.Matches a b) (after : s.Later t) :
    t.Matches a b :=
  ⟨same.value, after.knows same.known, same.place.trans (after.counterpart_eq same.known).symm⟩

theorem Matches.constant (s : Thinning F) (c : F) :
    s.Matches (Traced.constant c) (Traced.constant c) :=
  ⟨rfl, .inl rfl, (counterpart_constant s.thinned.length_lt).symm⟩

/-- What the run with fewer variables tracks, the other one tracks as well. -/
theorem Matches.isTracked (same : s.Matches a b) (tracked : a.isTracked = true) :
    b.isTracked = true := by
  simp only [Traced.isTracked, bne_iff_ne] at tracked ⊢
  intro fixed
  rw [same.place, fixed] at tracked
  exact tracked (counterpart_constant s.thinned.length_lt)

/-- The next variable of the second tape has the counterpart that is added for it. -/
theorem Matches.next {s t : Thinning F} {i : Index} (value : F)
    (grown : t.counterparts = s.counterparts ++ [i]) :
    t.Matches ⟨value, i⟩ ⟨value, s.whole.tape.size⟩ := by
  refine ⟨rfl, ?_, ?_⟩
  · rw [known_iff, grown, List.length_append, ← s.thinned.length_eq]
    exact .inr (Nat.lt_succ_self _)
  · rw [grown, s.counterpart_concat]

/-- **One statement on both tapes.** The first tape skips it if it lacks all operands, and otherwise
both tapes record it. -/
theorem runs_record (value : F) (terms : List (Index × F))
    (known : ∀ term ∈ terms, s.whole.tape.Knows term.1) (few : terms.length ≤ 2) :
    (thinning F).Runs 1 Matches s (Traced.record value (thin s.counterparts terms))
      (Traced.record value terms) := by
  by_cases fixed : ∀ term ∈ terms, term.1 = Index.constant
  · have still : ∀ term ∈ thin s.counterparts terms, term.1 = Index.constant := by
      rw [thin_constant_iff]
      intro term member
      rw [fixed term member, counterpart_constant s.thinned.length_lt]
    rw [Traced.record_of_constant value fixed, Traced.record_of_constant value still]
    exact (thinning F).weaken ((thinning F).pure (.constant s value)) zero_le_one
  intro spare room
  have enough : s.Room 1 := room.weaken (Nat.le_add_right ..)
  have pushed := s.whole.gains_push known few enough.whole
  have rest := s.whole.room_push known few room.whole enough.whole
  rw [Traced.record_of_tracked value fixed]
  by_cases dropped : ∀ term ∈ thin s.counterparts terms, term.1 = Index.constant
  · rw [Traced.record_of_constant value dropped]
    let t : Thinning F :=
      { part := s.part
        whole := s.whole.push terms known few enough.whole
        counterparts := s.counterparts ++ [Index.constant]
        thinned := .drop s.thinned (thin_constant_iff.mp dropped) pushed }
    have same : t.Matches (Traced.constant value) ⟨value, s.whole.tape.size⟩ := .next value rfl
    have skipped := room.part.weaken (Nat.le_add_left ..)
    exact .inr ⟨t, _, _, ⟨_, rfl⟩, ⟨skipped, rest⟩, same, fun _ => rfl, fun _ => rfl⟩
  · rw [Traced.record_of_tracked value dropped]
    have fewer : ∀ term ∈ thin s.counterparts terms, s.part.tape.Knows term.1 :=
      List.forall_mem_map.mpr fun term _ => s.knows_counterpart term.1
    have short : (thin s.counterparts terms).length ≤ 2 := (List.length_map _).trans_le few
    let t : Thinning F :=
      { part := s.part.push _ fewer short enough.part
        whole := s.whole.push terms known few enough.whole
        counterparts := s.counterparts ++ [s.part.tape.size]
        thinned := .keep s.thinned (s.part.gains_push fewer short enough.part) pushed }
    have same : t.Matches ⟨value, s.part.tape.size⟩ ⟨value, s.whole.tape.size⟩ := .next value rfl
    have kept := s.part.room_push fewer short room.part enough.part
    exact .inr ⟨t, _, _, ⟨_, rfl⟩, ⟨kept, rest⟩, same, fun _ => rfl, fun _ => rfl⟩

end Thinning

open Thinning in
/-- Every operation keeps numbers matched, those with plain numbers included. The arithmetic has no
part in it. -/
theorem thinning_respects [Arith F] : (thinning F).Respects (Matches (F := F)) where
  later after same := same.later after
  value same := same.value
  lift := .constant
  neg {s a b} same := by
    obtain ⟨x, i⟩ := a
    obtain ⟨rfl, known, rfl⟩ := same
    exact runs_record _ [(_, -1)] (by simp [known]) one_le_two
  elementary {s a b} f same := by
    obtain ⟨x, i⟩ := a
    obtain ⟨rfl, known, rfl⟩ := same
    exact runs_record _ [(_, f.slope b.value)] (by simp [known]) one_le_two
  operate {s a c b d} o left right := by
    obtain ⟨x, i⟩ := a
    obtain ⟨y, j⟩ := c
    obtain ⟨rfl, first, rfl⟩ := left
    obtain ⟨rfl, second, rfl⟩ := right
    have known (m n : F) : ∀ term ∈ [(b.index, m), (d.index, n)], s.whole.tape.Knows term.1 := by
      simp [first, second]
    cases o with
    | add => exact runs_record _ [(_, 1), (_, 1)] (known _ _) le_rfl
    | sub => exact runs_record _ [(_, 1), (_, -1)] (known _ _) le_rfl
    | mul => exact runs_record _ [(_, d.value), (_, b.value)] (known _ _) le_rfl
    | div =>
      have known := known (1 / d.value) (-b.value * (1 / d.value) * (1 / d.value))
      exact runs_record (b.value * (1 / d.value)) _ known le_rfl
  operateRight {s a b} o c same := by
    obtain ⟨x, i⟩ := a
    obtain ⟨rfl, first, rfl⟩ := same
    have known (m : F) : ∀ term ∈ [(b.index, m)], s.whole.tape.Knows term.1 := by simp [first]
    cases o with
    | add | sub => exact runs_record _ [(_, 1)] (known _) one_le_two
    | mul => exact runs_record _ [(_, c)] (known _) one_le_two
    | div => exact runs_record _ [(_, 1 / c)] (known _) one_le_two
  operateLeft {s a b} o c same := by
    obtain ⟨x, i⟩ := a
    obtain ⟨rfl, first, rfl⟩ := same
    have known (m : F) : ∀ term ∈ [(b.index, m)], s.whole.tape.Knows term.1 := by simp [first]
    cases o with
    | add => exact runs_record _ [(_, 1)] (known _) one_le_two
    | sub => exact runs_record _ [(_, -1)] (known _) one_le_two
    | mul => exact runs_record _ [(_, c)] (known _) one_le_two
    | div => exact runs_record _ [(_, -c * (1 / b.value) * (1 / b.value))] (known _) one_le_two

/-! ## Inputs of which some vary -/

/-- A tape with one independent variable for each entry of `x` that varies, and all entries as
traced numbers. Those that do not vary are constants. -/
def independentsAmong (varies : Nat → Bool) (x : List F) : Tape F × List (Traced F) :=
  x.zipIdx.foldl (fun (t, inputs) (c, i) =>
    if varies i then (t.allocate, inputs ++ [⟨c, t.size⟩])
    else (t, inputs ++ [Traced.constant c])) ({}, [])

/-- Runs a computation on inputs with values `x`, of which some vary, and gives the tape that it
leaves. -/
def recordedAmong {α : Type} (varies : Nat → Bool) (x : List F)
    (body : List (Traced F) → RecordM F α) : RecordM F (α × Tape F) :=
  let (blank, inputs) := independentsAmong varies x
  RecordM.onTape blank (body inputs)

theorem independentsAmong_concat (varies : Nat → Bool) (x : List F) (c : F) :
    independentsAmong varies (x ++ [c]) =
      if varies x.length then ((independentsAmong varies x).1.allocate,
        (independentsAmong varies x).2 ++ [⟨c, (independentsAmong varies x).1.size⟩])
      else ((independentsAmong varies x).1,
        (independentsAmong varies x).2 ++ [Traced.constant c]) := by
  simp [independentsAmong, List.zipIdx_append, List.foldl_append]

private theorem length_independentsAmong (varies : Nat → Bool) (x : List F) :
    (independentsAmong varies x).2.length = x.length := by
  induction x using List.reverseRecOn with
  | nil => rfl
  | append_singleton x c ih =>
    rw [independentsAmong_concat]
    split_ifs <;> simp [ih]

/-- If all entries vary, nothing is left out. -/
theorem independentsAmong_all (x : List F) :
    independentsAmong (fun _ => true) x = independents x := by
  induction x using List.reverseRecOn with
  | nil => rfl
  | append_singleton x c ih =>
    rw [independentsAmong_concat, independents_concat, ih]
    rfl

section Run

variable {α : Type} {varies : Nat → Bool} {x : List F} {body : List (Traced F) → RecordM F α}
  {r : Recorder F} {journal : Journal F}

theorem recordedAmong_eq (varies : Nat → Bool) (x : List F)
    (body : List (Traced F) → RecordM F α) (r : Recorder F) :
    (recordedAmong varies x body).run.run r =
      let (result, inner) := (body (independentsAmong varies x).2).run.run
        ⟨some (independentsAmong varies x).1, r.journal⟩
      (result.map fun a => (a, inner.tape.getD (independentsAmong varies x).1),
        { inner with tape := r.tape }) :=
  rfl

theorem recordedAmong_of_ok {a : α} {t : Tape F}
    (ran : (body (independentsAmong varies x).2).run.run
      ⟨some (independentsAmong varies x).1, r.journal⟩ = (.ok a, ⟨some t, journal⟩)) :
    (recordedAmong varies x body).run.run r = (.ok (a, t), ⟨r.tape, journal⟩) := by
  rw [recordedAmong_eq, ran]
  rfl

private theorem recordedAmong_of_error {fault : Fault} {t : Option (Tape F)}
    (ended : (body (independentsAmong varies x).2).run.run
      ⟨some (independentsAmong varies x).1, r.journal⟩ = (.error fault, ⟨t, journal⟩)) :
    (recordedAmong varies x body).run.run r = (.error fault, ⟨r.tape, journal⟩) := by
  rw [recordedAmong_eq, ended]
  rfl

end Run

/-- A run of which all inputs vary is a recorded run. -/
theorem recordedAmong_all {α : Type} (x : List F) (body : List (Traced F) → RecordM F α) :
    recordedAmong (fun _ => true) x body = recorded x body := by
  rw [recordedAmong, recorded, independentsAmong_all]

namespace Thinning

/-- The stage at which only the inputs are recorded. -/
theorem exists_inputs (varies : Nat → Bool) (x : List F) (room : x.length < 2 ^ 32) :
    ∃ s : Thinning F, s.part.tape = (independentsAmong varies x).1 ∧
      s.whole.tape = (independents x).1 ∧ s.whole.tape.size.toNat = x.length ∧
      s.part.tape.multipliers.size = 0 ∧ s.whole.tape.multipliers.size = 0 ∧
      List.Forall₂ s.Matches (independentsAmong varies x).2 (independents x).2 ∧
      ∀ k a, varies k = true → (independentsAmong varies x).2[k]? = some a →
        a.isTracked = true := by
  induction x using List.reverseRecOn with
  | nil =>
    exact ⟨⟨⟨{}, [], .blank⟩, ⟨{}, [], .blank⟩, [], .blank⟩, rfl, rfl, rfl, rfl, rfl, .nil,
      fun _ _ _ none => (nomatch none)⟩
  | append_singleton x c ih =>
    rw [List.length_append, List.length_singleton] at room ⊢
    obtain ⟨s, few, many, size, fewer, more, same, tracked⟩ := ih (Nat.lt_of_succ_lt room)
    have places : s.whole.tape.size.toNat + 1 < 2 ^ 32 := size ▸ room
    have gains : s.whole.tape.Gains .independent s.whole.tape.allocate := .allocate places
    let whole : Recording F := ⟨_, _, s.whole.recorded.gain gains⟩
    have grown : whole.tape.size.toNat = x.length + 1 := by
      rw [gains.size_eq, size]
      rfl
    rw [independents_concat, independentsAmong_concat, ← many, ← few]
    split_ifs with free
    · have fits : s.part.tape.size.toNat + 1 < 2 ^ 32 :=
        (Nat.add_le_add_right s.thinned.size_le 1).trans_lt places
      have keeps : s.part.tape.Gains .independent s.part.tape.allocate := .allocate fits
      let t : Thinning F :=
        { part := ⟨_, _, s.part.recorded.gain keeps⟩
          whole := whole
          counterparts := s.counterparts ++ [s.part.tape.size]
          thinned := .keepInput s.thinned keeps gains }
      have last : t.Matches ⟨c, s.part.tape.size⟩ ⟨c, s.whole.tape.size⟩ := .next c rfl
      refine ⟨t, rfl, rfl, grown, fewer, more, ?_, fun k a vary found => ?_⟩
      · exact List.rel_append (same.imp fun _ _ old => old.later ⟨_, rfl⟩) (.cons last .nil)
      · obtain old | ⟨-, rfl⟩ := getElem?_concat_iff.mp found
        · exact tracked k a vary old
        · exact bne_iff_ne.mpr (ne_constant_of_room fits)
    · let t : Thinning F :=
        { part := s.part
          whole := whole
          counterparts := s.counterparts ++ [Index.constant]
          thinned := .dropInput s.thinned gains }
      have last : t.Matches (Traced.constant c) ⟨c, s.whole.tape.size⟩ := .next c rfl
      refine ⟨t, rfl, rfl, grown, fewer, more, ?_, fun k a vary found => ?_⟩
      · exact List.rel_append (same.imp fun _ _ old => old.later ⟨_, rfl⟩) (.cons last .nil)
      · obtain old | ⟨rfl, rfl⟩ := getElem?_concat_iff.mp found
        · exact tracked k a vary old
        · rw [length_independentsAmong] at vary
          exact absurd vary free

/-- Sweeps of the same outputs give the same adjoints to the variables that both tapes have. -/
theorem sweeps [Arith F] {s : Thinning F} {few many : List (Traced F)}
    (same : List.Forall₂ s.Matches few many) (weights : List F) :
    ∃ left right, s.part.tape.sweep (seedsOf few weights) = .ok left ∧
      s.whole.tape.sweep (seedsOf many weights) = .ok right ∧
      Agree s.counterparts left right := by
  have places : few.map Traced.index =
      (many.map Traced.index).map (counterpart s.counterparts) := by
    rw [List.map_map, ← List.forall₂_eq_eq_eq, List.forall₂_map_left_iff,
      List.forall₂_map_right_iff]
    exact same.imp fun _ _ here => here.place
  have thinly : (few.map Traced.index).zip weights =
      thin s.counterparts ((many.map Traced.index).zip weights) := by
    rw [places, List.zip_map_left]
    rfl
  have known : ∀ seed ∈ (many.map Traced.index).zip weights, s.whole.tape.Knows seed.1 := by
    intro seed member
    obtain ⟨a, listed, place⟩ := List.mem_map.mp (List.of_mem_zip member).1
    obtain ⟨_, -, here⟩ := exists_related same a listed
    exact place ▸ here.known
  rw [seedsOf_eq, seedsOf_eq, thinly]
  exact s.thinned.sweep_eq known

end Thinning

/-! ## The two runs -/

section Runs

variable [Arith F]

/-- The registers and the outputs of a run whose unknowns are the first inputs, up to `split`, and
whose parameters are the others. -/
def Function.traced (f : Function F) (split : Nat) (reals : List F) (integers : List Int)
    (inputs : List (Traced F)) : RecordM F (Array (Traced F) × List (Traced F)) := do
  let registers ← f.program.run
    { unknowns := inputs.take split, parameters := inputs.drop split, reals, integers }
  return (registers, ← Output.select registers f.outputs)

/-- What two runs of one function have in common if the first one holds the inputs that do not vary
constant. Each run is given by its registers, its outputs and its tape. -/
structure SameButConstants (f : Function F) (varies : Nat → Bool) (x : List F)
    (part whole : (Array (Traced F) × List (Traced F)) × Tape F) : Prop where
  /-- The registers have the same values. -/
  registers : part.1.1.toList.map Traced.value = whole.1.1.toList.map Traced.value
  /-- The selections took the same registers. -/
  branches : f.program.map (Instruction.branch part.1.1) =
    f.program.map (Instruction.branch whole.1.1)
  /-- The outputs have the same values. -/
  outputs : part.1.2.map Traced.value = whole.1.2.map Traced.value
  /-- What the first run tracks, the second one tracks as well. -/
  tracked (k : Nat) {a b : Traced F} : part.1.1[k]? = some a → whole.1.1[k]? = some b →
    a.isTracked = true → b.isTracked = true
  /-- Whatever the weights of the outputs are, both sweeps succeed, and an input that varies has the
  same adjoint after both. -/
  adjoints (weights : List F) : ∃ left right,
    part.2.sweep (seedsOf part.1.2 weights) = .ok left ∧
    whole.2.sweep (seedsOf whole.1.2 weights) = .ok right ∧
    ∀ (k : Nat) (a b : Traced F), varies k = true →
      (independentsAmong varies x).2[k]? = some a → (independents x).2[k]? = some b →
      ∃ d, left[a.index.toNat]? = some d ∧ right[b.index.toNat]? = some d

/-- Runs that end at a stage where all registers and outputs match have all this in common. -/
theorem Thinning.sameButConstants {f : Function F} {varies : Nat → Bool} {x : List F}
    {s t : Thinning F} (after : s.Later t)
    (inputs : List.Forall₂ s.Matches (independentsAmong varies x).2 (independents x).2)
    (start : ∀ k a, varies k = true → (independentsAmong varies x).2[k]? = some a →
      a.isTracked = true)
    {part whole : Array (Traced F) × List (Traced F)} (same : Aligned t.Matches part.1 whole.1)
    (chosen : List.Forall₂ t.Matches part.2 whole.2) :
    SameButConstants f varies x (part, t.part.tape) (whole, t.whole.tape) where
  registers := thinning_respects.values_eq same
  branches := List.map_congr_left fun i _ => thinning_respects.branch_eq same i
  outputs := thinning_respects.values_eq chosen
  tracked k a b first second := by
    have both := same.rel k
    rw [first, second] at both
    cases both with
    | some here => exact here.isTracked
  adjoints weights := by
    obtain ⟨left, right, here, there, agree⟩ := sweeps chosen weights
    refine ⟨left, right, here, there, fun k a b vary first second => ?_⟩
    have both := rel_getElem? inputs k
    rw [first, second] at both
    cases both with
    | some old =>
      have found := old.later after
      have kept : a.index ≠ Index.constant := bne_iff_ne.mp (start k a vary first)
      refine agree.same ?_ kept
      have moves : b.isTracked = true := found.isTracked (start k a vary first)
      have varied : b.index ≠ Index.constant := bne_iff_ne.mp moves
      have below := (t.known_iff.mp found.known).resolve_left varied
      rw [found.place, counterpart, List.getD_eq_getElem _ _ below, List.getElem?_eq_getElem below]

/-- **Inputs held constant lose their own adjoints only.** For every program within the words of a
tape, all inputs, any choice of those that vary and in any arithmetic: both runs end in the same
fault, or both succeed and have the same values, branches and adjoints. -/
theorem recordedAmong_sameButConstants (f : Function F) (varies : Nat → Bool) (x : List F)
    (fits : f.program.WithinWords x.length) (split : Nat) (reals : List F) (integers : List Int)
    (r : Recorder F) :
    (∃ fault,
      (recordedAmong varies x (f.traced split reals integers)).run.run r = (.error fault, r) ∧
      (recorded x (f.traced split reals integers)).run.run r = (.error fault, r)) ∨
    ∃ part whole,
      (recordedAmong varies x (f.traced split reals integers)).run.run r = (.ok part, r) ∧
      (recorded x (f.traced split reals integers)).run.run r = (.ok whole, r) ∧
      SameButConstants f varies x part whole := by
  obtain ⟨s, few, many, size, fewer, more, inputs, start⟩ :=
    Thinning.exists_inputs varies x ((Nat.le_add_right _ _).trans_lt fits.places)
  have room : s.Room (f.program.length + 0) := by
    obtain ⟨places, operands⟩ := fits
    have shorter := s.thinned.size_le
    constructor <;> constructor <;> omega
  have arranged : Inputs.Related s.Matches
      { unknowns := (independentsAmong varies x).2.take split
        parameters := (independentsAmong varies x).2.drop split, reals, integers }
      { unknowns := (independents x).2.take split
        parameters := (independents x).2.drop split, reals, integers } :=
    ⟨List.forall₂_take split inputs, List.forall₂_drop split inputs, rfl, rfl⟩
  have runs : (thinning F).Runs f.program.length
      (fun t a b => Aligned t.Matches a.1 b.1 ∧ List.Forall₂ t.Matches a.2 b.2) s
      (f.traced split reals integers (independentsAmong varies x).2)
      (f.traced split reals integers (independents x).2) := by
    refine Coupling.runs_bind_of_free (thinning_respects.run arranged f.program) ?_
    intro t registers others _ same
    refine (thinning F).weaken ((thinning F).bind
      (thinning_respects.select same f.outputs) ?_) (Nat.add_zero 0).le
    intro u outputs picked after chosen
    exact (thinning F).pure ⟨thinning_respects.aligned_later after same, chosen⟩
  obtain ⟨fault, _, _, ended, stopped⟩ | ⟨t, part, whole, after, -, ⟨same, chosen⟩, ran, went⟩ :=
    runs 0 room
  · rw [few] at ended
    rw [many] at stopped
    exact .inl ⟨fault, recordedAmong_of_error (ended _), recorded_of_error (stopped _)⟩
  · rw [few] at ran
    rw [many] at went
    exact .inr ⟨_, _, recordedAmong_of_ok (ran _), recorded_of_ok (went _),
      Thinning.sameButConstants after inputs start same chosen⟩

end Runs

/-- A shared register, a quotient, a detached factor and a branch, with the first input constant.
The run records four variables instead of seven. -/
theorem recordedAmong_sameButConstants_with_branch :
    ∃ f : Function ℚ, f.program.WithinWords 2 ∧ ∃ part whole,
      (recordedAmong (· == 1) [2, 5] (f.traced 2 [] [])).run.run {} = (.ok part, {}) ∧
      (recorded [2, 5] (f.traced 2 [] [])).run.run {} = (.ok whole, {}) ∧
      part.2.size = 4 ∧ whole.2.size = 7 ∧ SameButConstants f (· == 1) [2, 5] part whole := by
  let f : Function ℚ :=
    { program := [.unknown 0, .unknown 1, .operate .mul 0 0, .operate .div 2 1, .detach 3,
        .operate .mul 4 2, .operateLeft .div 20 1, .select .less 0 1 3 6, .neg 7]
      outputs := [.always 2, .always 8, .whenLess 0 1 5, .always 4] }
  have fits : f.program.WithinWords 2 := ⟨by decide, by decide⟩
  have few : ((recordedAmong (· == 1) [2, 5] (f.traced 2 [] [])).run.run {}).1.toOption.map
      (·.2.size) = some 4 := by decide +kernel
  have many : ((recorded [2, 5] (f.traced 2 [] [])).run.run {}).1.toOption.map
      (·.2.size) = some 7 := by decide +kernel
  obtain ⟨fault, ended, -⟩ | ⟨part, whole, ran, went, same⟩ :=
    recordedAmong_sameButConstants f (· == 1) [2, 5] fits 2 [] [] {}
  · rw [ended] at few
    cases few
  · rw [ran] at few
    rw [went] at many
    exact ⟨f, fits, part, whole, ran, went, Option.some.inj few, Option.some.inj many, same⟩

theorem Function.traced_lastSum {n split : Nat} {i j : Register} {before : Program ℚ}
    {given : List (Traced ℚ)} {registers all : Array (Traced ℚ)} {output : Traced ℚ}
    {start last : Recorder ℚ} (longer : Longer registers all n)
    (size : registers.size = before.length)
    (ran : (Program.run { unknowns := given.take split, parameters := given.drop split }
      (before ++ Program.sums n i j) : RecordM ℚ (Array (Traced ℚ))).run.run start =
        (.ok (all.push output), last)) :
    ((lastSum before n i j).traced split [] [] given).run.run start =
      (.ok (all.push output, [output]), last) := by
  refine (run_bind_of_ok ran).trans ?_
  rw [lastSum, ← size, Output.select_always (longer.getElem?_push output)]
  rfl

/-- Sums of an input that is held constant leave no trace, however many they are. -/
theorem recordedAmong_lastSum (n : Nat) : ∃ part,
    (recordedAmong (· == 0) ([1, 1] : List ℚ)
      ((Function.lastSum [.unknown 0, .unknown 1] n 1 0).traced 2 [] [])).run.run {} =
        (.ok part, {}) ∧
    part.2.sweep (seedsOf part.1.2 [1]) = .ok #[2, 0] := by
  let start : Tape ℚ × List (Traced ℚ) := independentsAmong (· == 0) [1, 1]
  let inputs : Inputs ℚ (Traced ℚ) :=
    { unknowns := start.2.take 2, parameters := start.2.drop 2 }
  let registers : Array (Traced ℚ) := #[⟨1, 0⟩, Traced.constant 1]
  have second : registers[1]? = some (Traced.constant 1) := rfl
  obtain ⟨all, longer, ran⟩ :=
    Program.runFrom_replicate (M := RecordM ℚ) inputs second (Traced.operate_add_constant 1) n
  have first : all[0]? = some ⟨1, 0⟩ := longer.kept rfl
  have whole (journal : Journal ℚ) : (Program.run inputs
      ([.unknown 0, .unknown 1] ++ Program.sums n 1 0) : RecordM ℚ _).run.run
        ⟨some start.1, journal⟩ =
          (.ok (all.push ⟨1 + 1, 1⟩), ⟨some (start.1.push [(0, 1), (0, 1)]), journal⟩) := by
    have begun : (Program.run inputs [.unknown 0, .unknown 1] : RecordM ℚ _) = pure registers := rfl
    have added := Traced.operate_add (a := (⟨1, 0⟩ : Traced ℚ)) (by decide) start.1 journal
    rw [Program.run_append, begun, pure_bind, Program.sums, Program.runFrom_append, ran, pure_bind,
      Program.runFrom_cons, Instruction.eval_add inputs first]
    exact run_bind_of_ok added
  have swept : (start.1.push [(0, 1), (0, 1)]).sweep [(1, 1)] = .ok #[2, 0] := by decide +kernel
  exact ⟨_, recordedAmong_of_ok (Function.traced_lastSum longer rfl (whole #[])), swept⟩

/-- With `2 ^ 31` sums on the tape, the adjoint of both inputs is lost. -/
theorem recorded_lastSum {n : Nat} (full : 2 * (n + 1) = 2 ^ 32) : ∃ whole right,
    (recorded ([1, 1] : List ℚ)
      ((Function.lastSum [.unknown 0, .unknown 1] n 1 0).traced 2 [] [])).run.run {} =
        (.ok whole, {}) ∧
    whole.2.sweep (seedsOf whole.1.2 [1]) = .ok right ∧ right[0]? = some 0 := by
  obtain ⟨s, start, blank, layout, -⟩ := exists_inputs ([1, 1] : List ℚ) (by decide)
  have two : s.tape.size.toNat = 2 := by
    rw [s.recorded.size_eq, layout]
    rfl
  have below (i : Index) (few : i.toNat < 2) : i < s.tape.size := by
    rwa [UInt32.lt_iff_toNat_lt, two]
  let given : List (Traced ℚ) := (independents [1, 1]).2
  have started (journal : Journal ℚ) : (Program.run (M := RecordM ℚ)
      { unknowns := given.take 2, parameters := given.drop 2 } [.unknown 0, .unknown 1]).run.run
        ⟨some s.tape, journal⟩ = (.ok #[⟨1, 0⟩, ⟨1, 1⟩], ⟨some s.tape, journal⟩) := rfl
  obtain ⟨all, output, tape, longer, -, ran, swept⟩ :=
    Program.run_lastSum (i := 1) (j := 0) _ started rfl rfl (below 1 (by decide))
      (below 0 (by decide)) blank full (by omega) rfl
  have gone := swept 1 (by decide +kernel)
  rw [start] at ran
  refine ⟨_, _, recorded_of_ok (Function.traced_lastSum longer rfl (ran #[])), gone, ?_⟩
  rw [Array.getElem?_replicate, if_pos (Nat.succ_pos _)]

/-- What holding inputs constant does not promise. A program that reads past its inputs ends in a
fault. And where the second input is added up `2 ^ 31 - 1` times before the first one, the words of
a tape suffice only if the second one is held constant: the first input has the adjoint two in this
run, and none in the run that records both. -/
theorem recordedAmong_past_words :
    (recorded ([1] : List ℚ) (Function.traced ⟨[.unknown 0, .unknown 1], [.always 0]⟩
      1 [] [])).run.run {} = (.error .indexOutOfBounds, {}) ∧
    ∃ part whole right,
      (recordedAmong (· == 0) ([1, 1] : List ℚ) ((Function.lastSum [.unknown 0, .unknown 1]
        (2 ^ 31 - 1) 1 0).traced 2 [] [])).run.run {} = (.ok part, {}) ∧
      (recorded ([1, 1] : List ℚ) ((Function.lastSum [.unknown 0, .unknown 1]
        (2 ^ 31 - 1) 1 0).traced 2 [] [])).run.run {} = (.ok whole, {}) ∧
      part.2.sweep (seedsOf part.1.2 [1]) = .ok #[2, 0] ∧
      whole.2.sweep (seedsOf whole.1.2 [1]) = .ok right ∧ right[0]? = some 0 ∧
      ¬ SameButConstants (Function.lastSum [.unknown 0, .unknown 1] (2 ^ 31 - 1) 1 0) (· == 0)
        [1, 1] part whole := by
  obtain ⟨part, ran, few⟩ := recordedAmong_lastSum (2 ^ 31 - 1)
  obtain ⟨whole, right, went, many, lost⟩ := recorded_lastSum (n := 2 ^ 31 - 1) (by norm_num)
  refine ⟨rfl, part, whole, right, ran, went, few, many, lost, fun same => ?_⟩
  obtain ⟨_, _, here, there, adjoints⟩ := same.adjoints [1]
  cases few.symm.trans here
  cases many.symm.trans there
  obtain ⟨d, two, none⟩ := adjoints 0 ⟨1, 0⟩ ⟨1, 0⟩ rfl rfl rfl
  cases lost.symm.trans none
  exact absurd two (by decide +kernel)

end ImplicitDiff
