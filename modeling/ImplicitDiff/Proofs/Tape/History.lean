import Mathlib.Tactic
import ImplicitDiff.Tape.Basic

/-! # Histories of tapes

A tape keeps operands and multipliers end to end and marks shares by 32-bit stops. A history is what
it was asked to record, as it was asked. As long as no word wraps around, the entries that are read
back from the arrays are those of the history, in order and complete; every entry defines variables
that are new at its time, by variables that are not.
-/

namespace ImplicitDiff

variable {F : Type}

/-- One thing that a tape was asked to record. -/
inductive Record (F : Type) where
  /-- An independent variable. -/
  | independent
  /-- A variable that depends on operands by their multipliers. -/
  | linear (terms : List (Index × F))
  /-- The variables that a node defines, one for each row of its block. -/
  | node (params : List Index) (sensitivity : List (List F))
deriving Repr

/-- How a variable came about. -/
inductive Origin (F : Type) where
  /-- It is independent. -/
  | free
  /-- It combines the operands by their multipliers. Constants among them count for nothing. -/
  | combination (terms : List (Index × F))
deriving Repr

/-- The variables that a record adds, in the order of their places. -/
def Record.origins : Record F → List (Origin F)
  | .independent => [.free]
  | .linear terms => [.combination terms]
  | .node params sensitivity => sensitivity.map fun row => .combination (params.zip row)

/-- All variables of a history, in the order of their places. -/
def origins (history : List (Record F)) : List (Origin F) := history.flatMap Record.origins

@[simp] theorem origins_append (history more : List (Record F)) :
    origins (history ++ more) = origins history ++ origins more := List.flatMap_append

@[simp] theorem origins_singleton (record : Record F) : origins [record] = record.origins := by
  simp [origins]

/-- The entry that a record leaves, if it leaves one, when the next place is `place`. -/
def Record.entries (place : Index) : Record F → List (Entry F)
  | .independent => []
  | .linear terms => [.linear place (terms.filter fun (i, _) => i != Index.constant)]
  | .node params sensitivity => [.node { params, sensitivity, firstOutput := place }]

/-- A place that leaves room for the next one is not the mark of a constant. -/
theorem ne_constant_of_room {i : Index} (room : i.toNat + 1 < 2 ^ 32) : i ≠ Index.constant := by
  rintro rfl
  exact absurd room (by decide)

/-- The number of operands that a record keeps on the tape: those of a linear statement that are no
constants. -/
def Record.tracked : Record F → Nat
  | .linear terms => (terms.filter fun (i, _) => i != Index.constant).length
  | _ => 0

namespace Tape

/-- Records one thing more. -/
def record (t : Tape F) : Record F → Except Fault (Tape F)
  | .independent => .ok t.allocate
  | .linear terms => .ok (t.push terms)
  | .node params sensitivity => do t.pushNode (← Node.build params sensitivity)

/-- An operand may be a constant or a variable that is already on the tape. -/
def Knows (t : Tape F) (i : Index) : Prop := i = Index.constant ∨ i < t.size

instance (t : Tape F) (i : Index) : Decidable (t.Knows i) :=
  inferInstanceAs (Decidable (i = Index.constant ∨ i < t.size))

/-- A tape records one thing more. Operands are known, a node is well formed, and neither the count
of variables nor that of operands leaves the range of a word. -/
inductive Gains : Tape F → Record F → Tape F → Prop
  | allocate {t : Tape F} (room : t.size.toNat + 1 < 2 ^ 32) : Gains t .independent t.allocate
  | push {t : Tape F} {terms : List (Index × F)} (known : ∀ term ∈ terms, t.Knows term.1)
      (room : t.size.toNat + 1 < 2 ^ 32)
      (shares : t.multipliers.size + (terms.filter fun (i, _) => i != Index.constant).length
        < 2 ^ 32) :
      Gains t (.linear terms) (t.push terms)
  | pushNode {t next : Tape F} {params : List Index} {sensitivity : List (List F)} {node : Node F}
      (built : Node.build params sensitivity = .ok node) (pushed : t.pushNode node = .ok next)
      (room : t.size.toNat + node.outputs < 2 ^ 32) :
      Gains t (.node params sensitivity) next

/-- A tape on which a history was recorded, from a blank one on. -/
inductive Recorded : Tape F → List (Record F) → Prop
  | blank : Recorded {} []
  | gain {t next : Tape F} {history : List (Record F)} {record : Record F}
      (before : Recorded t history) (now : t.Gains record next) :
      Recorded next (history ++ [record])

/-- The operands with their multipliers, those of all linear statements end to end. -/
def pairs (t : Tape F) : List (Index × F) := t.operands.toList.zip t.multipliers.toList

/-- What recording keeps of the arrays: operands and multipliers are in step, no stop points past
their end, and the last one points to it. -/
structure Stored (t : Tape F) : Prop where
  aligned : t.operands.size = t.multipliers.size
  fits : t.multipliers.size < 2 ^ 32
  stops : ∀ s ∈ t.statements.toList, s.stop.toNat ≤ t.multipliers.size
  last : ((t.statements.toList.getLast?.map Statement.stop).getD 0).toNat = t.multipliers.size

theorem Stored.length_pairs {t : Tape F} (stored : t.Stored) :
    t.pairs.length = t.multipliers.size := by
  simp [pairs, stored.aligned]

theorem terms_eq (t : Tape F) (start stop : UInt32) :
    t.terms start stop = (t.pairs.drop start.toNat).take (stop.toNat - start.toNat) := by
  simp only [terms, pairs, Array.toList_extract, List.extract_eq_take_drop, List.zip_eq_zipWith,
    List.drop_zipWith, List.take_zipWith]

theorem entriesFrom_append (t : Tape F) (start : UInt32) (before after : List (Statement F)) :
    t.entriesFrom start (before ++ after) = t.entriesFrom start before ++
      t.entriesFrom ((before.getLast?.map Statement.stop).getD start) after := by
  induction before generalizing start with
  | nil => rfl
  | cons s rest ih =>
    simp only [List.cons_append, entriesFrom, ih, List.getLast?_cons]
    cases rest.getLast? <;> rfl

/-- Shares that end within the arrays are not disturbed by what is appended later. -/
theorem entriesFrom_of_append {t next : Tape F} {more : List (Index × F)}
    (grown : next.pairs = t.pairs ++ more) (start : UInt32) (statements : List (Statement F))
    (within : ∀ s ∈ statements, s.stop.toNat ≤ t.pairs.length) :
    next.entriesFrom start statements = t.entriesFrom start statements := by
  induction statements generalizing start with
  | nil => rfl
  | cons s rest ih =>
    simp only [List.forall_mem_cons] at within
    have share : next.terms start s.stop = t.terms start s.stop := by
      have short : s.stop.toNat - start.toNat ≤ (t.pairs.drop start.toNat).length := by
        rw [List.length_drop]
        omega
      rw [terms_eq, terms_eq, grown, List.drop_append, List.take_append_of_le_length short]
    simp only [entriesFrom, ih _ within.2, share]

/-- The statement that comes last is read back with what was appended for it. -/
theorem entries_of_append {t next : Tape F} (stored : t.Stored) {more : List (Index × F)}
    {s : Statement F} (grown : next.pairs = t.pairs ++ more)
    (statements : next.statements = t.statements.push s)
    (stop : s.stop.toNat = t.multipliers.size + more.length) :
    next.entries = t.entries ++
      [match s.node with
        | some n => .node n
        | none => .linear s.result more] := by
  have before : next.entriesFrom 0 t.statements.toList = t.entries := by
    apply entriesFrom_of_append grown
    rw [stored.length_pairs]
    exact stored.stops
  have share (start : UInt32) (here : start.toNat = t.multipliers.size) :
      next.terms start s.stop = more := by
    rw [terms_eq, grown, here, stop, ← stored.length_pairs, List.drop_left, Nat.add_sub_cancel_left,
      List.take_length]
  change next.entriesFrom 0 next.statements.toList = _
  rw [statements, Array.toList_push, entriesFrom_append, before]
  exact congrArg (fun found => t.entries ++
    [match s.node with
      | some n => .node n
      | none => .linear s.result found]) (share _ stored.last)

theorem size_push (t : Tape F) (terms : List (Index × F)) :
    (t.push terms).multipliers.size =
      t.multipliers.size + (terms.filter fun (i, _) => i != Index.constant).length := by
  simp only [push, ← Array.length_toList, Array.toList_appendList, List.length_append,
    List.length_map]

theorem pairs_push {t : Tape F} (stored : t.Stored) (terms : List (Index × F)) :
    (t.push terms).pairs = t.pairs ++ terms.filter fun (i, _) => i != Index.constant := by
  have length : t.operands.toList.length = t.multipliers.toList.length := stored.aligned
  simp only [pairs, push, Array.toList_appendList, List.zip_append length, List.zip_map',
    Prod.mk.eta, List.map_id']

theorem Stored.append {t next : Tape F} {s : Statement F} (stored : t.Stored)
    (statements : next.statements = t.statements.push s)
    (aligned : next.operands.size = next.multipliers.size)
    (fits : next.multipliers.size < 2 ^ 32) (longer : t.multipliers.size ≤ next.multipliers.size)
    (stop : s.stop.toNat = next.multipliers.size) : next.Stored := by
  refine ⟨aligned, fits, ?_, ?_⟩
  · intro other member
    rw [statements, Array.toList_push, List.mem_append, List.mem_singleton] at member
    obtain old | rfl := member
    · exact (stored.stops other old).trans longer
    · exact stop.le
  · rw [statements, Array.toList_push, List.getLast?_concat]
    exact stop

/-- What an accepted node leaves on the tape. -/
theorem pushNode_eq_ok_iff {t next : Tape F} {n : Node F} :
    t.pushNode n = .ok next ↔ (∀ p ∈ n.params, t.Knows p) ∧
      next = { t with
        statements := t.statements.push
          { result := t.size, stop := t.multipliers.size.toUInt32,
            node := some { n with firstOutput := t.size } }
        size := t.size + n.outputs.toUInt32 } := by
  unfold pushNode
  split
  next p found =>
    have foreign := List.find?_some found
    have member := List.mem_of_find?_eq_some found
    simp only [Bool.and_eq_true, bne_iff_ne, Bool.not_eq_true', decide_eq_false_iff_not] at foreign
    refine iff_of_false (by simp) fun accepted => ?_
    exact (accepted.1 p member).elim foreign.1 foreign.2
  next absent =>
    simp only [List.find?_eq_none, Bool.and_eq_true, bne_iff_ne, Bool.not_eq_true',
      decide_eq_false_iff_not, not_and_not_right] at absent
    have known : ∀ p ∈ n.params, t.Knows p := fun p member =>
      (em (p = Index.constant)).imp id (absent p member)
    simp only [Except.ok.injEq, eq_comm, and_iff_right known]

/-- A node is only refused for a parameter that is not on the tape. -/
theorem foreign_of_pushNode_eq_error {t : Tape F} {n : Node F} {fault : Fault}
    (refused : t.pushNode n = .error fault) :
    ∃ p ∈ n.params, ¬t.Knows p ∧ fault = .foreignParameter p t.size := by
  unfold pushNode at refused
  split at refused
  next p found =>
    have foreign := List.find?_some found
    simp only [Bool.and_eq_true, bne_iff_ne, Bool.not_eq_true', decide_eq_false_iff_not] at foreign
    cases refused
    exact ⟨p, List.mem_of_find?_eq_some found, not_or.mpr foreign, rfl⟩
  next => cases refused

end Tape

/-- What an accepted node is made of. -/
theorem Node.find?_eq_none_iff {sensitivity : List (List F)} {width : Nat} :
    sensitivity.zipIdx.find? (fun (row, _) => row.length != width) = none ↔
      ∀ row ∈ sensitivity, row.length = width := by
  rw [List.find?_eq_none]
  constructor
  · intro square row member
    obtain ⟨i, bound, rfl⟩ := List.getElem_of_mem member
    simpa using square (sensitivity[i], i) (List.mk_mem_zipIdx_iff_getElem?.mpr (by simp [bound]))
  · rintro square ⟨row, i⟩ member
    simpa using square row (List.fst_mem_of_mem_zipIdx member)

theorem Node.build_eq_ok_iff {params : List Index} {sensitivity : List (List F)} {n : Node F} :
    Node.build params sensitivity = .ok n ↔ sensitivity ≠ [] ∧
      (∀ row ∈ sensitivity, row.length = params.length) ∧ n = { params, sensitivity } := by
  unfold Node.build
  rw [← Node.find?_eq_none_iff]
  simp only [List.isEmpty_iff]
  split_ifs with blank
  · simp [blank]
  · split
    · next ragged => simp [ragged]
    · next square => simp [square, blank, eq_comm]

/-- The operands that a record names. -/
def Record.operands : Record F → List Index
  | .independent => []
  | .linear terms => terms.map (·.1)
  | .node params _ => params

namespace Tape

variable {t next : Tape F} {record : Record F}

/-- A node is recorded if it is well formed and accepted. -/
theorem record_node_eq_ok_iff {params : List Index} {sensitivity : List (List F)} :
    t.record (.node params sensitivity) = .ok next ↔
      ∃ n, Node.build params sensitivity = .ok n ∧ t.pushNode n = .ok next := by
  cases built : Node.build params sensitivity with
  | error fault => simp [Tape.record, built, Bind.bind, Except.bind]
  | ok n => simp [Tape.record, built, Bind.bind, Except.bind]

/-! ## What one record does

Nothing is assumed of the operands here, only that the words have room. -/

/-- The next place is past the new variables. -/
theorem size_of_record (done : t.record record = .ok next)
    (places : t.size.toNat + record.origins.length < 2 ^ 32) :
    next.size.toNat = t.size.toNat + record.origins.length := by
  cases record with
  | independent =>
    cases done
    exact (UInt32.toNat_add t.size 1).trans (Nat.mod_eq_of_lt places)
  | linear terms =>
    cases done
    exact (UInt32.toNat_add t.size 1).trans (Nat.mod_eq_of_lt places)
  | node params sensitivity =>
    obtain ⟨n, built, pushed⟩ := record_node_eq_ok_iff.mp done
    obtain ⟨-, -, rfl⟩ := Node.build_eq_ok_iff.mp built
    obtain ⟨-, rfl⟩ := pushNode_eq_ok_iff.mp pushed
    simp only [Record.origins, List.length_map] at places
    simp only [Record.origins, Node.outputs, UInt32.toNat_add, Nat.toUInt32_eq,
      UInt32.toNat_ofNat', List.length_map]
    omega

/-- The arrays grow by the operands that are kept. -/
theorem multipliers_of_record (done : t.record record = .ok next) :
    next.multipliers.size = t.multipliers.size + record.tracked := by
  cases record with
  | independent =>
    cases done
    rfl
  | linear terms =>
    cases done
    exact size_push t terms
  | node params sensitivity =>
    obtain ⟨n, -, pushed⟩ := record_node_eq_ok_iff.mp done
    obtain ⟨-, rfl⟩ := pushNode_eq_ok_iff.mp pushed
    rfl

/-- What was recorded is read back as it was asked for. -/
theorem Stored.entries_of_record (stored : t.Stored) (done : t.record record = .ok next)
    (shares : t.multipliers.size + record.tracked < 2 ^ 32) :
    next.entries = t.entries ++ record.entries t.size := by
  cases record with
  | independent =>
    cases done
    have same : t.allocate.pairs = t.pairs ++ [] := (List.append_nil _).symm
    have within : ∀ s ∈ t.statements.toList, s.stop.toNat ≤ t.pairs.length := by
      rw [stored.length_pairs]
      exact stored.stops
    exact (entriesFrom_of_append same 0 _ within).trans (List.append_nil _).symm
  | linear terms =>
    cases done
    apply entries_of_append stored (pairs_push stored _) rfl
    exact (UInt32.toNat_ofNat_of_lt' ((size_push t _).trans_lt shares)).trans (size_push t _)
  | node params sensitivity =>
    obtain ⟨n, built, pushed⟩ := record_node_eq_ok_iff.mp done
    obtain ⟨-, -, rfl⟩ := Node.build_eq_ok_iff.mp built
    obtain ⟨-, same⟩ := pushNode_eq_ok_iff.mp pushed
    have grown : next.pairs = t.pairs ++ [] := by
      rw [same]
      exact (List.append_nil _).symm
    rw [entries_of_append stored grown (congrArg statements same)
      (UInt32.toNat_ofNat_of_lt' stored.fits)]
    rfl

theorem Stored.of_record (stored : t.Stored) (done : t.record record = .ok next)
    (shares : t.multipliers.size + record.tracked < 2 ^ 32) : next.Stored := by
  have size := multipliers_of_record done
  cases record with
  | independent =>
    cases done
    exact { stored with }
  | linear terms =>
    cases done
    rw [← size] at shares
    refine stored.append rfl ?_ shares (size ▸ Nat.le_add_right ..)
      (UInt32.toNat_ofNat_of_lt' shares)
    have aligned := stored.aligned
    simp only [← Array.length_toList] at aligned
    simp only [Tape.push, ← Array.length_toList, Array.toList_appendList, List.length_append,
      List.length_map, aligned]
  | node params sensitivity =>
    obtain ⟨n, built, pushed⟩ := record_node_eq_ok_iff.mp done
    obtain ⟨-, rfl⟩ := pushNode_eq_ok_iff.mp pushed
    exact stored.append rfl stored.aligned stored.fits le_rfl
      (UInt32.toNat_ofNat_of_lt' stored.fits)

namespace Gains

theorem record_eq (now : t.Gains record next) : t.record record = .ok next := by
  cases now with
  | allocate | push => rfl
  | pushNode built pushed => exact record_node_eq_ok_iff.mpr ⟨_, built, pushed⟩

theorem places (now : t.Gains record next) : t.size.toNat + record.origins.length < 2 ^ 32 := by
  cases now with
  | allocate room => exact room
  | push known room => exact room
  | pushNode built pushed room =>
    obtain ⟨-, -, rfl⟩ := Node.build_eq_ok_iff.mp built
    rwa [Record.origins, List.length_map]

theorem shares (now : t.Gains record next) (stored : t.Stored) :
    t.multipliers.size + record.tracked < 2 ^ 32 := by
  cases now with
  | allocate | pushNode => exact stored.fits
  | push known room shares => exact shares

theorem size_eq (now : t.Gains record next) :
    next.size.toNat = t.size.toNat + record.origins.length :=
  size_of_record now.record_eq now.places

theorem knows (now : t.Gains record next) : ∀ i ∈ record.operands, t.Knows i := by
  cases now with
  | allocate => simp [Record.operands]
  | push known => simpa [Record.operands] using known
  | pushNode built pushed =>
    obtain ⟨-, -, rfl⟩ := Node.build_eq_ok_iff.mp built
    exact (pushNode_eq_ok_iff.mp pushed).1

theorem entries_eq (stored : t.Stored) (now : t.Gains record next) :
    next.entries = t.entries ++ record.entries t.size :=
  stored.entries_of_record now.record_eq (now.shares stored)

theorem stored (stored : t.Stored) (now : t.Gains record next) : next.Stored :=
  stored.of_record now.record_eq (now.shares stored)

end Gains

namespace Recorded

variable {t : Tape F} {history : List (Record F)}

theorem stored (recorded : t.Recorded history) : t.Stored := by
  induction recorded with
  | blank => exact ⟨rfl, Nat.two_pow_pos 32, by simp, rfl⟩
  | gain _ now ih => exact now.stored ih

theorem size_eq (recorded : t.Recorded history) : t.size.toNat = (origins history).length := by
  induction recorded with
  | blank => rfl
  | gain _ now ih => rw [now.size_eq, ih, origins_append, origins_singleton, List.length_append]

/-- A variable of a longer history is an old one or one of the new record. -/
theorem getElem?_origins_concat (recorded : t.Recorded history) {record : Record F} {k : Nat}
    {origin : Origin F} : (origins (history ++ [record]))[k]? = some origin ↔
      (origins history)[k]? = some origin ∨
        ∃ i, k = t.size.toNat + i ∧ record.origins[i]? = some origin := by
  rw [origins_append, origins_singleton, recorded.size_eq]
  by_cases old : k < (origins history).length
  · rw [List.getElem?_append_left old]
    refine ⟨.inl, fun either => either.elim id ?_⟩
    rintro ⟨i, rfl, -⟩
    omega
  · have later := not_lt.mp old
    rw [List.getElem?_append_right later, List.getElem?_eq_none later]
    constructor
    · exact fun found => .inr ⟨_, (Nat.add_sub_cancel' later).symm, found⟩
    · rintro (none | ⟨i, rfl, found⟩)
      · cases none
      · rwa [Nat.add_sub_cancel_left]

end Recorded

end Tape

end ImplicitDiff
