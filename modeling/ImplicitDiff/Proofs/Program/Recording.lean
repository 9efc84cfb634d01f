import ImplicitDiff.Proofs.Effects
import ImplicitDiff.Proofs.Exact
import ImplicitDiff.Proofs.Program.Coupling
import ImplicitDiff.Proofs.Tape.Adjoint
import ImplicitDiff.Derivative

/-! # Recording follows the forward mode

A run on traced numbers leaves a history. In any direction that is chosen for the independent
variables, the tangents along this history are the tangents that the same program computes on dual
numbers. The two runs are coupled stage by stage: at each, every register is on the tape and moves
at the rate of its dual number.
-/

namespace ImplicitDiff

/-- A stage of a recording: a tape and what was recorded on it. -/
structure Recording (F : Type) where
  /-- The tape. -/
  tape : Tape F
  /-- What was recorded. -/
  history : List (Record F)
  /-- The tape holds what was recorded. -/
  recorded : tape.Recorded history

/-- The tangent of the variable at a place, and zero for a constant. -/
def rate {F : Type} [Zero F] (tangents : Nat → F) (i : Index) : F :=
  if i = Index.constant then 0 else tangents i.toNat

theorem weigh_singleton {F : Type} [CommRing F] (tangents : Nat → F) (i : Index) (m : F) :
    weigh tangents [(i, m)] = m * rate tangents i := by
  unfold rate
  split_ifs with fixed <;> simp [weigh, fixed]

theorem weigh_pair {F : Type} [CommRing F] (tangents : Nat → F) (i j : Index) (m n : F) :
    weigh tangents [(i, m), (j, n)] = m * rate tangents i + n * rate tangents j := by
  rw [weigh_cons, weigh_singleton, weigh_singleton]

namespace Recording

variable {F : Type}

/-- The recording went on. -/
def Later (s t : Recording F) : Prop := ∃ more, t.history = s.history ++ more

theorem Later.refl (s : Recording F) : s.Later s := ⟨[], (List.append_nil _).symm⟩

theorem Later.trans {s t u : Recording F} (first : s.Later t) (second : t.Later u) :
    s.Later u := by
  obtain ⟨more, grown⟩ := first
  obtain ⟨rest, longer⟩ := second
  exact ⟨more ++ rest, by rw [longer, grown, List.append_assoc]⟩

theorem Later.size_le {s t : Recording F} (after : s.Later t) :
    s.tape.size.toNat ≤ t.tape.size.toNat := by
  obtain ⟨more, grown⟩ := after
  rw [s.recorded.size_eq, t.recorded.size_eq, grown, origins_append, List.length_append]
  exact Nat.le_add_right ..

theorem Later.knows {s t : Recording F} (after : s.Later t) {i : Index}
    (known : s.tape.Knows i) : t.tape.Knows i := by
  refine known.imp id fun below => ?_
  exact UInt32.lt_iff_toNat_lt.mpr ((UInt32.lt_iff_toNat_lt.mp below).trans_le after.size_le)

/-- The words of the tape can count so many more statements, of at most two operands each. -/
structure Room (spare : Nat) (s : Recording F) : Prop where
  places : s.tape.size.toNat + spare < 2 ^ 32
  operands : s.tape.multipliers.size + 2 * spare < 2 ^ 32

theorem Room.weaken {s : Recording F} {spare fewer : Nat} (room : s.Room spare)
    (less : fewer ≤ spare) : s.Room fewer := by
  obtain ⟨places, operands⟩ := room
  constructor <;> omega

/-- A place that is on the tape is not the mark of a constant. -/
theorem ne_constant {i : Index} (s : Recording F) (below : i < s.tape.size) :
    i ≠ Index.constant := by
  rintro rfl
  have top : Index.constant.toNat < s.tape.size.toNat := UInt32.lt_iff_toNat_lt.mp below
  have words : s.tape.size.toNat < 2 ^ 32 := UInt32.toNat_lt_size _
  have largest : Index.constant.toNat = 2 ^ 32 - 1 := rfl
  omega

/-- A computation that cannot record beside one that can, as long as the words suffice. The second
succeeds where the first does, and leaves the tape of a later stage; where the first ends in a
fault, so does the second. The journal stays as it is. -/
structure Runs {α β : Type} (cost : Nat) (related : Recording F → α → β → Prop) (s : Recording F)
    (m : Except Fault α) (n : RecordM F β) : Prop where
  ok {a : α} {spare : Nat} : m = .ok a → s.Room (cost + spare) →
    ∃ t b, s.Later t ∧ t.Room spare ∧ related t a b ∧
      ∀ journal, n.run.run ⟨some s.tape, journal⟩ = (.ok b, ⟨some t.tape, journal⟩)
  error {fault : Fault} : m = .error fault → s.Room cost →
    ∃ t, ∀ journal, n.run.run ⟨some s.tape, journal⟩ = (.error fault, ⟨t, journal⟩)

theorem Runs.bind {α β γ δ : Type} {first : Recording F → α → β → Prop}
    {second : Recording F → γ → δ → Prop} {cost more : Nat} {s : Recording F} {m : Except Fault α}
    {n : RecordM F β} {f : α → Except Fault γ} {g : β → RecordM F δ} (runs : Runs cost first s m n)
    (next : ∀ t a b, s.Later t → first t a b → Runs more second t (f a) (g b)) :
    Runs (cost + more) second s (m >>= f) (n >>= g) := by
  cases m with
  | error fault =>
    refine ⟨fun none => (nomatch none), fun same room => ?_⟩
    obtain rfl := Except.error.inj same
    obtain ⟨t, ended⟩ := runs.error rfl (room.weaken (Nat.le_add_right ..))
    exact ⟨t, fun journal => run_bind_of_error (ended journal)⟩
  | ok a =>
    constructor
    · intro c spare last room
      rw [Nat.add_assoc] at room
      obtain ⟨t, b, after, left, here, ran⟩ := runs.ok rfl room
      obtain ⟨u, d, later, rest, there, went⟩ := (next t a b after here).ok last left
      refine ⟨u, d, after.trans later, rest, there, fun journal => ?_⟩
      exact (run_bind_of_ok (ran journal)).trans (went journal)
    · intro fault last room
      obtain ⟨t, b, after, left, here, ran⟩ := runs.ok rfl room
      obtain ⟨u, ended⟩ := (next t a b after here).error last left
      exact ⟨u, fun journal => (run_bind_of_ok (ran journal)).trans (ended journal)⟩

end Recording

/-- Runs without a tape beside runs that record. -/
def recording (F : Type) : Coupling (Except Fault) (RecordM F) where
  Stage := Recording F
  Later := Recording.Later
  Runs := Recording.Runs
  later_refl := .refl
  later_trans := .trans
  pure here := by
    refine ⟨fun same room => ?_, fun none => (nomatch none)⟩
    cases same
    exact ⟨_, _, .refl _, room.weaken (Nat.le_add_left ..), here, fun _ => rfl⟩
  fault related s fault := by
    refine ⟨fun none => (nomatch none), fun same _ => ?_⟩
    cases same
    exact ⟨_, fun _ => rfl⟩
  weaken runs less :=
    { ok := fun same room => runs.ok same (room.weaken (Nat.add_le_add_right less _))
      error := fun same room => runs.error same (room.weaken less) }
  bind := Recording.Runs.bind

theorem Traced.record_of_constant {F : Type} (value : F) {terms : List (Index × F)}
    (fixed : ∀ term ∈ terms, term.1 = Index.constant) :
    Traced.record value terms = pure (Traced.constant value) :=
  if_pos (by simpa using fixed)

theorem Traced.record_of_tracked {F : Type} (value : F) {terms : List (Index × F)}
    (tracked : ¬ ∀ term ∈ terms, term.1 = Index.constant) :
    Traced.record value terms = do return { value, index := ← RecordM.push terms } :=
  if_neg (by simpa using tracked)

namespace Recording

variable {F : Type}

/-- The tangents of all variables in a direction of the independent ones. -/
def tangents [CommRing F] (free : Nat → F) (s : Recording F) : Nat → F :=
  tangentAt free (origins s.history)

private theorem Later.rate_eq [CommRing F] {s t : Recording F} (after : s.Later t) (free : Nat → F)
    {i : Index} (known : s.tape.Knows i) :
    rate (t.tangents free) i = rate (s.tangents free) i := by
  obtain ⟨more, grown⟩ := after
  obtain rfl | below := known
  · rfl
  · have place := UInt32.lt_iff_toNat_lt.mp below
    rw [s.recorded.size_eq] at place
    simp only [rate, tangents, grown, origins_append, tangentAt_append free _ _ place]

/-- A dual number and a traced number have the same value, and the traced one, which is on the tape
if it is no constant, moves at the rate of the dual one. -/
structure Follows [CommRing F] (free : Nat → F) (s : Recording F) (d : Dual F) (a : Traced F) :
    Prop where
  value : d.primal = a.value
  known : s.tape.Knows a.index
  tangent : d.tangent = rate (s.tangents free) a.index

theorem Follows.later [CommRing F] {free : Nat → F} {s t : Recording F} {d : Dual F} {a : Traced F}
    (follows : Follows free s d a) (after : s.Later t) : Follows free t d a :=
  ⟨follows.value, after.knows follows.known,
    follows.tangent.trans (after.rate_eq free follows.known).symm⟩

theorem Follows.constant [CommRing F] (free : Nat → F) (s : Recording F) {d : Dual F} {c : F}
    (value : d.primal = c) (still : d.tangent = 0) : Follows free s d (Traced.constant c) :=
  ⟨value, .inl rfl, still⟩

theorem size_push_le (t : Tape F) {terms : List (Index × F)} (few : terms.length ≤ 2) :
    (t.push terms).multipliers.size ≤ t.multipliers.size + 2 := by
  rw [Tape.size_push]
  exact Nat.add_le_add_left ((List.length_filter_le ..).trans few) _

/-- The stage after a linear statement. -/
def push (s : Recording F) (terms : List (Index × F)) (known : ∀ term ∈ terms, s.tape.Knows term.1)
    (few : terms.length ≤ 2) (room : s.Room 1) : Recording F where
  tape := s.tape.push terms
  history := s.history ++ [.linear terms]
  recorded := by
    refine s.recorded.gain (.push known room.places ?_)
    rw [← Tape.size_push]
    exact (size_push_le s.tape few).trans_lt room.operands

theorem gains_push (s : Recording F) {terms : List (Index × F)}
    (known : ∀ term ∈ terms, s.tape.Knows term.1) (few : terms.length ≤ 2) (room : s.Room 1) :
    s.tape.Gains (.linear terms) (s.push terms known few room).tape := by
  refine .push known room.places ?_
  rw [← Tape.size_push]
  exact (size_push_le s.tape few).trans_lt room.operands

/-- A statement takes one place and at most two operands of the room that is left. -/
theorem room_push (s : Recording F) {terms : List (Index × F)}
    (known : ∀ term ∈ terms, s.tape.Knows term.1) (few : terms.length ≤ 2) {spare : Nat}
    (room : s.Room (1 + spare)) (enough : s.Room 1) :
    (s.push terms known few enough).Room spare := by
  have grows := (s.gains_push known few enough).size_eq
  have shares : (s.push terms known few enough).tape.multipliers.size ≤ _ :=
    size_push_le s.tape few
  obtain ⟨places, operands⟩ := room
  change _ = s.tape.size.toNat + 1 at grows
  constructor <;> omega

/-- A statement whose terms weigh the tangents as the dual number does gives a number that follows
it. -/
theorem runs_record [CommRing F] {free : Nat → F} {s : Recording F} {d : Dual F} {value : F}
    {terms : List (Index × F)} (same : d.primal = value)
    (known : ∀ term ∈ terms, s.tape.Knows term.1) (few : terms.length ≤ 2)
    (moves : d.tangent = weigh (s.tangents free) terms) :
    (recording F).Runs 1 (Follows free) s (pure d) (Traced.record value terms) := by
  unfold Traced.record
  split_ifs with fixed
  · refine (recording F).weaken ((recording F).pure ?_) zero_le_one
    refine .constant free s same (moves.trans (weigh_zero ?_))
    intro term member varies
    exact absurd (eq_of_beq (List.all_eq_true.mp fixed term member)) varies
  · refine ⟨fun result room => ?_, fun none => (nomatch none)⟩
    cases result
    rename_i spare
    have enough : s.Room 1 := room.weaken (Nat.le_add_right ..)
    let t := s.push terms known few enough
    have after : s.Later t := ⟨_, rfl⟩
    have grows : t.tape.size.toNat = s.tape.size.toNat + 1 :=
      (s.gains_push known few enough).size_eq
    have here : s.tape.size < t.tape.size := by
      rw [UInt32.lt_iff_toNat_lt, grows]
      exact Nat.lt_succ_self _
    have left : t.Room spare := s.room_push known few room enough
    refine ⟨t, ⟨value, s.tape.size⟩, after, left, ⟨same, .inr here, ?_⟩, fun journal => rfl⟩
    rw [rate, if_neg (t.ne_constant here), s.recorded.size_eq, moves]
    simp only [tangents, t, push, origins_append, origins_singleton, Record.origins,
      tangentAt_concat]
    rfl

end Recording

/-- The quotient rule as two multipliers. Both sides are zero where the divisor is. -/
theorem Dual.tangent_div {F : Type} [ExactField F] (a b : Dual F) :
    (a / b).tangent = 1 / b.primal * a.tangent +
      -a.primal * (1 / b.primal) * (1 / b.primal) * b.tangent := by
  change (a.tangent * b.primal - a.primal * b.tangent) * (1 / b.primal) * (1 / b.primal) = _
  by_cases zero : b.primal = 0
  · rw [zero]
    ring
  · field_simp
    ring

open Recording in
/-- **Recording follows the forward mode** in every direction: each operation on traced numbers
records the tangent that it computes on dual numbers. -/
theorem recording_respects {F : Type} [ExactField F] (free : Nat → F) :
    (recording F).Respects (Recording.Follows free) where
  later after follows := follows.later after
  value follows := follows.value
  lift s c := .constant free s rfl rfl
  neg {s a b} follows := by
    refine runs_record (congrArg _ follows.value) (by simp [follows.known]) (by simp) ?_
    rw [weigh_singleton, ← follows.tangent, neg_one_mul]
    rfl
  elementary {s a b} f follows := by
    refine runs_record (congrArg f.value follows.value) (by simp [follows.known]) (by simp) ?_
    rw [weigh_singleton, ← follows.tangent, ← follows.value, mul_comm]
    rfl
  operate {s a c b d} o left right := by
    obtain ⟨x, i⟩ := b
    obtain ⟨y, j⟩ := d
    obtain ⟨rfl, first, moves⟩ := left
    obtain ⟨rfl, second, turns⟩ := right
    have known (m n : F) : ∀ term ∈ [(i, m), (j, n)], s.tape.Knows term.1 := by
      simp [first, second]
    dsimp only at moves turns
    cases o with
    | add =>
      refine runs_record rfl (known 1 1) le_rfl ?_
      rw [weigh_pair, ← moves, ← turns, one_mul, one_mul]
      rfl
    | sub =>
      refine runs_record rfl (known 1 (-1)) le_rfl ?_
      rw [weigh_pair, ← moves, ← turns, one_mul, neg_one_mul, ← sub_eq_add_neg]
      rfl
    | mul =>
      refine runs_record rfl (known _ _) le_rfl ?_
      rw [weigh_pair, ← moves, ← turns, add_comm, mul_comm _ a.tangent]
      rfl
    | div =>
      refine runs_record rfl (known _ _) le_rfl ?_
      rw [weigh_pair, ← moves, ← turns]
      exact Dual.tangent_div a c
  operateRight {s a b} o c follows := by
    obtain ⟨x, i⟩ := b
    obtain ⟨rfl, first, moves⟩ := follows
    have known (m : F) : ∀ term ∈ [(i, m)], s.tape.Knows term.1 := by simp [first]
    dsimp only at moves
    cases o with
    | add =>
      refine runs_record rfl (known 1) one_le_two ?_
      rw [weigh_singleton, ← moves, one_mul]
      rfl
    | sub =>
      refine runs_record rfl (known 1) one_le_two ?_
      rw [weigh_singleton, ← moves, one_mul]
      rfl
    | mul =>
      refine runs_record rfl (known c) one_le_two ?_
      rw [weigh_singleton, ← moves, mul_comm]
      rfl
    | div =>
      refine runs_record (div_eq_mul_one_div _ _) (known _) one_le_two ?_
      rw [weigh_singleton, ← moves, mul_comm, ← div_eq_mul_one_div]
      rfl
  operateLeft {s a b} o c follows := by
    obtain ⟨x, i⟩ := b
    obtain ⟨rfl, first, moves⟩ := follows
    have known (m : F) : ∀ term ∈ [(i, m)], s.tape.Knows term.1 := by simp [first]
    dsimp only at moves
    cases o with
    | add =>
      refine runs_record rfl (known 1) one_le_two ?_
      rw [weigh_singleton, ← moves, one_mul]
      rfl
    | sub =>
      refine runs_record rfl (known (-1)) one_le_two ?_
      rw [weigh_singleton, ← moves, neg_one_mul]
      rfl
    | mul =>
      refine runs_record rfl (known c) one_le_two ?_
      rw [weigh_singleton, ← moves]
      rfl
    | div =>
      refine runs_record rfl (known _) one_le_two ?_
      rw [weigh_singleton, ← moves]
      change -c * a.tangent * (1 / a.primal) * (1 / a.primal) = _
      ring

end ImplicitDiff
