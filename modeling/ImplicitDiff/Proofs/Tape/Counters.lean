import Mathlib.Tactic
import ImplicitDiff.Proofs.Effects
import ImplicitDiff.Proofs.Tape.History

/-! # The counters of a tape

Variables and kept operands are both counted by words, and a statement may keep more operands than
it defines variables. As long as neither count leaves the range of a word, places and shares are
what they would be with unbounded numbers, whatever operands a statement names. The count of
variables alone does not suffice: two operands for each variable use up the words of the stops while
half of the places are left.
-/

namespace ImplicitDiff

variable {F : Type}

/-- The number of operands that a history keeps on the tape. -/
def tracked (history : List (Record F)) : Nat := (history.map Record.tracked).sum

@[simp] theorem tracked_concat (history : List (Record F)) (record : Record F) :
    tracked (history ++ [record]) = tracked history + record.tracked := by
  simp [tracked]

/-- The entries of a history whose first variable takes the place `place`. -/
def entriesOf (place : Nat) : List (Record F) → List (Entry F)
  | [] => []
  | record :: rest =>
    record.entries (.ofNat place) ++ entriesOf (place + record.origins.length) rest

private theorem entriesOf_append (place : Nat) (before after : List (Record F)) :
    entriesOf place (before ++ after) =
      entriesOf place before ++ entriesOf (place + (origins before).length) after := by
  induction before generalizing place with
  | nil => rfl
  | cons record rest ih =>
    have length : (origins (record :: rest)).length =
        record.origins.length + (origins rest).length := by
      simp [origins]
    rw [List.cons_append, entriesOf, entriesOf, ih, List.append_assoc, length, Nat.add_assoc]

namespace Tape

/-- Records a history, unless a node in it is refused. -/
def recordAll (t : Tape F) (history : List (Record F)) : Except Fault (Tape F) :=
  history.foldlM record t

theorem recordAll_append_eq_ok_iff {t next : Tape F} {before after : List (Record F)} :
    t.recordAll (before ++ after) = .ok next ↔
      ∃ earlier, t.recordAll before = .ok earlier ∧ earlier.recordAll after = .ok next := by
  rw [recordAll, List.foldlM_append, except_bind_eq_ok_iff]
  rfl

private theorem recordAll_singleton (t : Tape F) (record : Record F) :
    t.recordAll [record] = t.record record :=
  bind_pure _

/-- The counts of a tape on which a history was recorded, in unbounded numbers. -/
structure Counts (t : Tape F) (history : List (Record F)) : Prop where
  places : t.size.toNat = (origins history).length
  operands : t.multipliers.size = tracked history
  stored : tracked history < 2 ^ 32 → t.Stored
  entries : tracked history < 2 ^ 32 → t.entries = entriesOf 0 history

/-- One record more keeps the counts, if there is a place left for each of its variables. -/
theorem Counts.record {t next : Tape F} {history : List (Record F)} {record : Record F}
    (counts : t.Counts history) (done : t.record record = .ok next)
    (room : (origins history).length + record.origins.length < 2 ^ 32) :
    next.Counts (history ++ [record]) := by
  rw [← counts.places] at room
  have shares (few : tracked (history ++ [record]) < 2 ^ 32) :
      t.multipliers.size + record.tracked < 2 ^ 32 := by
    rwa [counts.operands, ← tracked_concat]
  have fewer (few : tracked (history ++ [record]) < 2 ^ 32) : tracked history < 2 ^ 32 :=
    (Nat.le_add_right ..).trans_lt (tracked_concat history record ▸ few)
  refine ⟨?_, ?_, fun few => ?_, fun few => ?_⟩
  · rw [size_of_record done room, counts.places, origins_append, origins_singleton,
      List.length_append]
  · rw [multipliers_of_record done, counts.operands, tracked_concat]
  · exact (counts.stored (fewer few)).of_record done (shares few)
  · rw [(counts.stored (fewer few)).entries_of_record done (shares few),
      counts.entries (fewer few), entriesOf_append, Nat.zero_add, ← counts.places, entriesOf,
      UInt32.ofNat_toNat]
    exact congrArg _ (List.append_nil _).symm

/-- A history whose variables have a place each is counted as in unbounded numbers. -/
theorem counts_of_recordAll {t : Tape F} {history : List (Record F)}
    (done : recordAll {} history = .ok t) (few : (origins history).length < 2 ^ 32) :
    t.Counts history := by
  induction history using List.reverseRecOn generalizing t with
  | nil =>
    cases done
    exact ⟨rfl, rfl, fun _ => ⟨rfl, Nat.two_pow_pos 32, by simp, rfl⟩, fun _ => rfl⟩
  | append_singleton history record ih =>
    obtain ⟨earlier, before, now⟩ := recordAll_append_eq_ok_iff.mp done
    rw [recordAll_singleton] at now
    rw [origins_append, origins_singleton, List.length_append] at few
    exact (ih before ((Nat.le_add_right ..).trans_lt few)).record now few

end Tape

/-- **Counters that do not wrap.** While fewer variables are recorded than there are places, every
variable has the place that counting gives, and none has the mark of a constant. If moreover fewer
than `2 ^ 32` operands are kept, every statement is read back with those of its operands that are no
constants, and with their multipliers. -/
theorem recordAll_in_step {history : List (Record F)} {t : Tape F}
    (done : Tape.recordAll {} history = .ok t) (few : (origins history).length < 2 ^ 32 - 1) :
    (∀ before record after, history = before ++ record :: after →
      ∃ earlier, Tape.recordAll {} before = .ok earlier ∧ ∀ i < record.origins.length,
        (earlier.size + .ofNat i).toNat = (origins before).length + i ∧
        earlier.size + .ofNat i ≠ Index.constant) ∧
    (tracked history < 2 ^ 32 → t.Stored ∧ t.entries = entriesOf 0 history) := by
  constructor
  · rintro before record after rfl
    obtain ⟨earlier, first, -⟩ := Tape.recordAll_append_eq_ok_iff.mp done
    have length : (origins (before ++ record :: after)).length =
        (origins before).length + (record.origins.length + (origins after).length) := by
      simp [origins]
    rw [length] at few
    have counts := Tape.counts_of_recordAll first (by omega)
    refine ⟨earlier, first, fun i inside => ?_⟩
    have place : (earlier.size + .ofNat i).toNat = (origins before).length + i := by
      rw [UInt32.toNat_add, counts.places, UInt32.toNat_ofNat']
      omega
    refine ⟨place, fun same => ?_⟩
    have mark : (origins before).length + i = 2 ^ 32 - 1 :=
      place.symm.trans (congrArg UInt32.toNat same)
    omega
  · have counts := Tape.counts_of_recordAll done (by omega)
    exact fun fits => ⟨counts.stored fits, counts.entries fits⟩

/-- Constants among the operands, a node of two variables and a statement on one of them. -/
theorem recordAll_in_step_with_node :
    ∃ (history : List (Record ℤ)) (t : Tape ℤ), Tape.recordAll {} history = .ok t ∧
      (origins history).length = 5 ∧ tracked history = 3 ∧ t.Stored ∧
      t.entries = [.linear 1 [(0, 2)],
        .node { params := [1, Index.constant], sensitivity := [[5, 6], [7, 8]], firstOutput := 2 },
        .linear 4 [(0, 1), (3, -1)]] ∧
      ∃ earlier, Tape.recordAll {} (history.take 2) = .ok earlier ∧ ∀ i < 2,
        (earlier.size + .ofNat i).toNat = 2 + i ∧ earlier.size + .ofNat i ≠ Index.constant := by
  let first : List (Record ℤ) := [.independent, .linear [(0, 2), (Index.constant, 3)]]
  let node : Record ℤ := .node [1, Index.constant] [[5, 6], [7, 8]]
  let last : List (Record ℤ) := [.linear [(0, 1), (3, -1)]]
  have done : Tape.recordAll {} (first ++ node :: last) = .ok _ := rfl
  obtain ⟨places, entries⟩ := recordAll_in_step done (by decide)
  obtain ⟨stored, same⟩ := entries (by decide)
  exact ⟨first ++ node :: last, _, rfl, rfl, rfl, stored, same, places first node last rfl⟩

/-! ## Two operands for each variable -/

/-- One independent variable and `n` statements with two operands each. -/
def twofold (n : Nat) : List (Record Float) :=
  .independent :: List.replicate n (.linear [(0, 1), (0, 1)])

theorem twofold_succ (n : Nat) : twofold (n + 1) = twofold n ++ [.linear [(0, 1), (0, 1)]] := by
  rw [twofold, List.replicate_succ', twofold, List.cons_append]

theorem length_origins_twofold (n : Nat) : (origins (twofold n)).length = n + 1 := by
  simp [twofold, origins, Record.origins]

theorem tracked_twofold (n : Nat) : tracked (twofold n) = 2 * n := by
  induction n with
  | zero => rfl
  | succ n ih =>
    rw [twofold_succ, tracked_concat, ih]
    rfl

private theorem exists_recordAll_twofold (n : Nat) :
    ∃ t, Tape.recordAll {} (twofold n) = .ok t := by
  induction n with
  | zero => exact ⟨_, rfl⟩
  | succ n ih =>
    obtain ⟨t, done⟩ := ih
    rw [twofold_succ]
    exact ⟨_, Tape.recordAll_append_eq_ok_iff.mpr ⟨t, done, rfl⟩⟩

/-- A statement comes last, with what lies between the stop before it and its own. -/
theorem entries_push (t : Tape F) (terms : List (Index × F)) :
    (t.push terms).entries = (t.push terms).entriesFrom 0 t.statements.toList ++
      [.linear t.size ((t.push terms).terms
        ((t.statements.toList.getLast?.map Statement.stop).getD 0)
        (t.push terms).multipliers.size.toUInt32)] := by
  change Tape.entriesFrom _ 0 (t.statements.push _).toList = _
  rw [Array.toList_push, Tape.entriesFrom_append]
  rfl

/-- A statement whose stop is the first one past the range of words is read back without its
operands. The statements before it are not affected. -/
theorem Tape.Stored.entries_of_full {t : Tape F} (stored : t.Stored) (terms : List (Index × F))
    (full : t.multipliers.size + (Record.linear terms).tracked = 2 ^ 32) :
    (t.push terms).entries = t.entries ++ [.linear t.size []] := by
  have before : (t.push terms).entriesFrom 0 t.statements.toList = t.entries := by
    apply Tape.entriesFrom_of_append (Tape.pairs_push stored terms)
    rw [stored.length_pairs]
    exact stored.stops
  have all : (t.push terms).multipliers.size = 2 ^ 32 := (Tape.size_push t terms).trans full
  have stop : (t.push terms).multipliers.size.toUInt32 = 0 := by
    rw [all]
    rfl
  have none (start : UInt32) : (t.push terms).terms start 0 = [] := by
    rw [Tape.terms_eq, UInt32.toNat_zero, Nat.zero_sub, List.take_zero]
  rw [entries_push, before, stop, none]

private theorem getLast?_entries_twofold {n : Nat} (full : 2 * (n + 1) = 2 ^ 32) :
    ∃ t, Tape.recordAll {} (twofold (n + 1)) = .ok t ∧
      t.entries.getLast? = some (.linear (.ofNat (n + 1)) []) := by
  obtain ⟨t, done⟩ := exists_recordAll_twofold n
  have counts := Tape.counts_of_recordAll done (by rw [length_origins_twofold]; omega)
  have operands : t.multipliers.size = 2 * n := counts.operands.trans (tracked_twofold n)
  have size : t.size = .ofNat (n + 1) := by
    rw [← length_origins_twofold, ← counts.places, UInt32.ofNat_toNat]
  have last : Tape.recordAll {} (twofold (n + 1)) = .ok (t.push [(0, 1), (0, 1)]) := by
    rw [twofold_succ]
    exact Tape.recordAll_append_eq_ok_iff.mpr ⟨t, done, rfl⟩
  have stored := counts.stored (by rw [tracked_twofold]; omega)
  have entries := stored.entries_of_full [(0, 1), (0, 1)] (operands ▸ full)
  exact ⟨_, last, by rw [entries, size, List.getLast?_concat]⟩

/-- What the count of variables alone does not promise. A constant operand leaves no trace. And of
`2 ^ 31 + 1` variables, which leave half of the places, the last one has lost both operands. -/
theorem statements_without_operands :
    (∃ t : Tape Float, Tape.recordAll {} [.independent, .linear [(0, 2), (Index.constant, 3)]] =
        .ok t ∧ t.entries = [.linear 1 [(0, 2)]]) ∧
      (origins (twofold (2 ^ 31))).length < 2 ^ 32 - 1 ∧
      ∃ t, Tape.recordAll {} (twofold (2 ^ 31)) = .ok t ∧
        t.entries.getLast? = some (.linear (.ofNat (2 ^ 31)) []) := by
  refine ⟨⟨_, rfl, rfl⟩, ?_, getLast?_entries_twofold rfl⟩
  rw [length_origins_twofold]
  decide

end ImplicitDiff
