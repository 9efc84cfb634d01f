import ImplicitDiff.Proofs.Tape.Order

/-! # The layout of a tape

The arrays of a tape hang together by places and stops. Every statement defines the variables of a
range of places, from its result on; the ranges follow each other, and between them lie the
independent variables. Every share of the operands lies within the arrays and points below the
result of its statement. Whatever is recorded keeps this, so no sweep leaves the arrays.
-/

namespace ImplicitDiff

variable {F : Type}

/-- The number of variables that a statement defines. -/
def Statement.width (s : Statement F) : Nat := (s.node.map Node.outputs).getD 1

/-- A statement defines the variables at consecutive places, from its result on. -/
def Statement.Defines (s : Statement F) (k : Nat) : Prop :=
  s.result.toNat ≤ k ∧ k < s.result.toNat + s.width

namespace Tape

/-- Consecutive statements, each with the place where its share of the operands starts: the stop of
the statement before it. -/
def sharesFrom (start : UInt32) : List (Statement F) → List (UInt32 × Statement F)
  | [] => []
  | s :: rest => (start, s) :: sharesFrom s.stop rest

/-- All statements, each with the place where its share of the operands starts. -/
def shares (t : Tape F) : List (UInt32 × Statement F) := sharesFrom 0 t.statements.toList

private theorem sharesFrom_concat (start : UInt32) (before : List (Statement F)) (s : Statement F) :
    sharesFrom start (before ++ [s]) =
      sharesFrom start before ++ [((before.getLast?.map Statement.stop).getD start, s)] := by
  induction before generalizing start with
  | nil => rfl
  | cons first rest ih =>
    simp only [List.cons_append, sharesFrom, ih, List.getLast?_cons]
    cases rest.getLast? <;> rfl

/-- How the arrays of a tape hang together, if its variables came about as `layout` says. -/
structure LaidOut (t : Tape F) (layout : List (Origin F)) : Prop extends t.Stored where
  /-- There is a place for each variable. -/
  places : t.size.toNat = layout.length
  /-- The stops do not decrease. -/
  ordered : ∀ share ∈ t.shares, share.1 ≤ share.2.stop
  /-- Operands exist, and lie below the result of their statement. -/
  operands : ∀ share ∈ t.shares, ∀ k, share.1.toNat ≤ k → k < share.2.stop.toNat →
    ∃ i, t.operands[k]? = some i ∧ i < share.2.result
  /-- So do the parameters of a node that are no constants. Its outputs start at the result. -/
  nodes : ∀ s ∈ t.statements.toList, ∀ n, s.node = some n →
    n.firstOutput = s.result ∧ ∀ p ∈ n.params, p = Index.constant ∨ p < s.result
  /-- Results increase, and no statement defines variables that a later one defines. -/
  apart : t.statements.toList.Pairwise fun s later =>
    s.result < later.result ∧ s.result.toNat + s.width ≤ later.result.toNat
  /-- A statement defines some variable. -/
  positive : ∀ s ∈ t.statements.toList, 0 < s.width
  /-- What is defined is on the tape. -/
  inside : ∀ s ∈ t.statements.toList, s.result.toNat + s.width ≤ t.size.toNat
  /-- No statement defines an independent variable. -/
  free : ∀ k : Nat, layout[k]? = some .free → ∀ s ∈ t.statements.toList, ¬s.Defines k
  /-- Every other variable is defined by a statement. -/
  defined : ∀ (k : Nat) terms, layout[k]? = some (.combination terms) →
    ∃ s ∈ t.statements.toList, s.Defines k

/-- What a record that is no independent variable appends to a tape: one statement, for the
variables from the next place on, with operands and parameters that are there already. -/
structure Appends (t next : Tape F) (record : Record F) (s : Statement F) : Prop where
  statements : next.statements = t.statements.push s
  result : s.result = t.size
  width : s.width = record.origins.length
  positive : 0 < s.width
  operands : ∃ more, next.operands.toList = t.operands.toList ++ more ∧ ∀ i ∈ more, i < t.size
  node : ∀ n, s.node = some n → n.firstOutput = t.size ∧ ∀ p ∈ n.params, t.Knows p
  dependent : .free ∉ record.origins

private theorem appends_push {t : Tape F} {terms : List (Index × F)}
    (known : ∀ term ∈ terms, t.Knows term.1) : ∃ s, t.Appends (t.push terms) (.linear terms) s := by
  refine ⟨_, rfl, rfl, rfl, Nat.one_pos, ⟨_, Array.toList_appendList, ?_⟩,
    fun _ none => (nomatch none), by simp [Record.origins]⟩
  intro i member
  obtain ⟨term, tracked, rfl⟩ := List.mem_map.mp member
  obtain ⟨listed, varies⟩ := List.mem_filter.mp tracked
  exact (known term listed).resolve_left (bne_iff_ne.mp varies)

private theorem appends_pushNode {t next : Tape F} {params : List Index}
    {sensitivity : List (List F)} {n : Node F} (built : Node.build params sensitivity = .ok n)
    (pushed : t.pushNode n = .ok next) :
    ∃ s, t.Appends next (.node params sensitivity) s := by
  obtain ⟨some, -, rfl⟩ := Node.build_eq_ok_iff.mp built
  obtain ⟨known, rfl⟩ := pushNode_eq_ok_iff.mp pushed
  refine ⟨_, rfl, rfl, (List.length_map _).symm, List.length_pos_iff.mpr some,
    ⟨[], (List.append_nil _).symm, by simp⟩, ?_, by simp [Record.origins]⟩
  rintro _ ⟨⟩
  exact ⟨rfl, known⟩

namespace Appends

variable {t next : Tape F} {record : Record F} {s : Statement F}

theorem toList_statements (appends : t.Appends next record s) :
    next.statements.toList = t.statements.toList ++ [s] := by
  rw [appends.statements, Array.toList_push]

/-- What the statements before it and the new one have, all statements have. -/
theorem forall_statements (appends : t.Appends next record s) {P : Statement F → Prop}
    (old : ∀ other ∈ t.statements.toList, P other) (new : P s) :
    ∀ other ∈ next.statements.toList, P other := by
  rw [appends.toList_statements, List.forall_mem_append, List.forall_mem_singleton]
  exact ⟨old, new⟩

/-- What the statements before it have in their order, and each of them with the new one, all
statements have. -/
theorem pairwise_statements (appends : t.Appends next record s)
    {R : Statement F → Statement F → Prop} (old : t.statements.toList.Pairwise R)
    (new : ∀ earlier ∈ t.statements.toList, R earlier s) :
    next.statements.toList.Pairwise R := by
  rw [appends.toList_statements, List.pairwise_append]
  refine ⟨old, List.pairwise_singleton .., fun earlier member later last => ?_⟩
  obtain rfl := List.mem_singleton.mp last
  exact new earlier member

private theorem stop_eq (appends : t.Appends next record s) (stored : next.Stored) :
    s.stop.toNat = next.multipliers.size := by
  rw [← stored.last, appends.toList_statements, List.getLast?_concat]
  rfl

/-- The share of the new statement starts at the end of the arrays. -/
theorem exists_start (appends : t.Appends next record s) (stored : t.Stored) :
    ∃ start : UInt32, start.toNat = t.multipliers.size ∧ next.shares = t.shares ++ [(start, s)] := by
  refine ⟨_, stored.last, ?_⟩
  rw [shares, appends.toList_statements, sharesFrom_concat]
  rfl

private theorem multipliers_le (appends : t.Appends next record s) (before : t.Stored)
    (after : next.Stored) : t.multipliers.size ≤ next.multipliers.size := by
  obtain ⟨more, grown, -⟩ := appends.operands
  rw [← before.aligned, ← after.aligned, ← Array.length_toList, ← Array.length_toList, grown,
    List.length_append]
  exact Nat.le_add_right ..

/-- The operands that were there stay where they are. -/
theorem getElem?_operands (appends : t.Appends next record s) {k : Nat} {i : Index}
    (found : t.operands[k]? = some i) : next.operands[k]? = some i := by
  obtain ⟨more, grown, -⟩ := appends.operands
  rw [← Array.getElem?_toList] at found ⊢
  rw [grown, List.getElem?_append_left (List.getElem?_eq_some_iff.mp found).1, found]

/-- The new operands are there, and below the new variables. -/
theorem exists_operand (appends : t.Appends next record s) {k : Nat} (above : t.operands.size ≤ k)
    (inside : k < next.operands.size) : ∃ i, next.operands[k]? = some i ∧ i < s.result := by
  obtain ⟨more, grown, known⟩ := appends.operands
  rw [← Array.length_toList] at above inside
  rw [← Array.getElem?_toList, List.getElem?_eq_getElem inside]
  refine ⟨_, rfl, appends.result ▸ known _ ?_⟩
  rw [List.getElem_of_eq grown, List.getElem_append_right above]
  exact List.getElem_mem _

end Appends

namespace LaidOut

variable {t next : Tape F} {history : List (Record F)} {record : Record F}

theorem blank : ({} : Tape F).LaidOut (origins []) where
  aligned := rfl
  fits := Nat.two_pow_pos 32
  stops := by simp
  last := rfl
  places := rfl
  ordered := by simp [shares, sharesFrom]
  operands := by simp [shares, sharesFrom]
  nodes := by simp
  apart := .nil
  positive := by simp
  inside := by simp
  free := by simp
  defined := by simp [origins]

/-- An independent variable takes a place above all statements. -/
theorem allocate (laid : t.LaidOut (origins history)) (recorded : t.Recorded history)
    (now : t.Gains .independent t.allocate) :
    t.allocate.LaidOut (origins (history ++ [.independent])) where
  toStored := now.stored laid.toStored
  places := (recorded.gain now).size_eq
  ordered := laid.ordered
  operands := laid.operands
  nodes := laid.nodes
  apart := laid.apart
  positive := laid.positive
  inside s member := (laid.inside s member).trans (now.size_eq.symm ▸ Nat.le_add_right ..)
  free k found s member defines := by
    obtain old | ⟨i, rfl, -⟩ := recorded.getElem?_origins_concat.mp found
    · exact laid.free k old s member defines
    · have inside := laid.inside s member
      have above := defines.2
      omega
  defined k terms found := by
    obtain old | ⟨i, -, new⟩ := recorded.getElem?_origins_concat.mp found
    · exact laid.defined k terms old
    · cases List.mem_singleton.mp (List.mem_of_getElem? new)

/-- A statement takes the places above all statements, and its share starts where the last one
stops. -/
theorem append (laid : t.LaidOut (origins history)) (recorded : t.Recorded history)
    (now : t.Gains record next) {s : Statement F} (appends : t.Appends next record s) :
    next.LaidOut (origins (history ++ [record])) := by
  have stored := now.stored laid.toStored
  have size := now.size_eq
  have result : s.result.toNat = t.size.toNat := congrArg UInt32.toNat appends.result
  have width := appends.width
  have stop := appends.stop_eq stored
  obtain ⟨start, starts, shares⟩ := appends.exists_start laid.toStored
  have longer := appends.multipliers_le laid.toStored stored
  refine
    { toStored := stored
      places := (recorded.gain now).size_eq
      ordered := ?ordered
      operands := ?operands
      nodes := ?nodes
      apart := ?apart
      positive := ?positive
      inside := ?inside
      free := ?free
      defined := ?defined }
  case ordered =>
    rw [shares, List.forall_mem_append, List.forall_mem_singleton]
    refine ⟨laid.ordered, UInt32.le_iff_toNat_le.mpr ?_⟩
    dsimp only
    omega
  case operands =>
    rw [shares, List.forall_mem_append, List.forall_mem_singleton]
    refine ⟨fun share member k after before => ?_, fun k after before => ?_⟩
    · obtain ⟨i, found, below⟩ := laid.operands share member k after before
      exact ⟨i, appends.getElem?_operands found, below⟩
    · rw [stop, ← stored.aligned] at before
      rw [starts, ← laid.aligned] at after
      exact appends.exists_operand after before
  case nodes => exact appends.forall_statements laid.nodes (appends.result ▸ appends.node)
  case apart =>
    refine appends.pairwise_statements laid.apart fun earlier member => ?_
    have inside := laid.inside earlier member
    have positive := laid.positive earlier member
    rw [UInt32.lt_iff_toNat_lt]
    omega
  case positive => exact appends.forall_statements laid.positive appends.positive
  case inside =>
    refine appends.forall_statements (fun old member => ?_) (by omega)
    exact (laid.inside old member).trans (by omega)
  case free =>
    intro k found
    obtain old | ⟨i, -, new⟩ := recorded.getElem?_origins_concat.mp found
    · refine appends.forall_statements (laid.free k old) fun defines => ?_
      have below := (List.getElem?_eq_some_iff.mp old).1
      have after := defines.1
      rw [← recorded.size_eq] at below
      omega
    · exact absurd (List.mem_of_getElem? new) appends.dependent
  case defined =>
    intro k terms found
    rw [appends.toList_statements]
    obtain old | ⟨i, rfl, new⟩ := recorded.getElem?_origins_concat.mp found
    · obtain ⟨other, member, defines⟩ := laid.defined k terms old
      exact ⟨other, List.mem_append_left _ member, defines⟩
    · have below := (List.getElem?_eq_some_iff.mp new).1
      exact ⟨s, List.mem_concat_self, by omega, by omega⟩

/-- Whatever is recorded keeps the layout. -/
theorem gain (laid : t.LaidOut (origins history)) (recorded : t.Recorded history)
    (now : t.Gains record next) : next.LaidOut (origins (history ++ [record])) := by
  cases now with
  | allocate room => exact laid.allocate recorded (.allocate room)
  | push known room shares =>
    obtain ⟨s, appends⟩ := appends_push known
    exact laid.append recorded (.push known room shares) appends
  | pushNode built pushed room =>
    obtain ⟨s, appends⟩ := appends_pushNode built pushed
    exact laid.append recorded (.pushNode built pushed room) appends

/-- No variable is defined twice. -/
theorem defines_unique {layout : List (Origin F)} (laid : t.LaidOut layout) {i j k : Nat}
    {s s' : Statement F} (first : t.statements[i]? = some s) (second : t.statements[j]? = some s')
    (defines : s.Defines k) (again : s'.Defines k) : i = j := by
  rw [← Array.getElem?_toList] at first second
  obtain ⟨inside, rfl⟩ := List.getElem?_eq_some_iff.mp first
  obtain ⟨within, rfl⟩ := List.getElem?_eq_some_iff.mp second
  have apart := List.pairwise_iff_getElem.mp laid.apart
  obtain less | same | greater := lt_trichotomy i j
  · have := (apart i j inside within less).2.trans again.1
    exact absurd defines.2 this.not_gt
  · exact same
  · have := (apart j i within inside greater).2.trans defines.1
    exact absurd again.2 this.not_gt

end LaidOut

/-- Every recorded tape is laid out as its history says. -/
theorem Recorded.laidOut {t : Tape F} {history : List (Record F)} (recorded : t.Recorded history) :
    t.LaidOut (origins history) := by
  induction recorded with
  | blank => exact .blank
  | gain before now ih => exact ih.gain before now

end Tape

end ImplicitDiff
