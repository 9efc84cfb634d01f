import ImplicitDiff.Proofs.Program.Recording

/-! # One recorded run, all directions

A recorded run follows the forward mode in every direction at a time: the tape does not depend on
the direction, the tangents along it do. The sweep of one output therefore gives the multipliers
by which the rates of the inputs enter its tangent, so tangents are linear in the direction, and a
weighted sum of tangents can be read off one sweep.
-/

namespace ImplicitDiff

variable {F : Type}

/-- The point `x` as dual numbers whose `i`-th entry changes at the rate `free i`. -/
def varied (free : Nat → F) (x : List F) : List (Dual F) := x.mapIdx fun i c => ⟨c, free i⟩

private theorem varied_concat (free : Nat → F) (x : List F) (c : F) :
    varied free (x ++ [c]) = varied free x ++ [⟨c, free x.length⟩] := by
  simp [varied]

theorem varied_zero [Arith F] (x : List F) : varied (fun _ => 0) x = x.map Dual.constant := by
  apply List.ext_getElem?
  intro i
  rw [varied, List.getElem?_mapIdx, List.getElem?_map]
  rfl

/-- A unit direction varies one entry. -/
theorem varied_single [ExactField F] (x : List F) (j : Nat) :
    varied (Pi.single j 1) x = seededAt x j := by
  unfold varied seededAt
  congr 1
  funext i c
  rw [Pi.single_apply]
  split_ifs <;> rfl

theorem primal_varied (free : Nat → F) (x : List F) : (varied free x).map Dual.primal = x := by
  apply List.ext_getElem?
  intro i
  rw [List.getElem?_map, varied, List.getElem?_mapIdx, Option.map_map]
  exact Option.map_id'

theorem primal_of_follows [CommRing F] {free : Nat → F} {t : Recording F} {duals : List (Dual F)}
    {outputs : List (Traced F)} (follow : List.Forall₂ (Recording.Follows free t) duals outputs) :
    duals.map Dual.primal = outputs.map Traced.value := by
  rw [← List.forall₂_eq_eq_eq, List.forall₂_map_left_iff, List.forall₂_map_right_iff]
  exact follow.imp fun _ _ here => here.value

/-- Numbers at places that move at given rates follow the point in the direction of these rates. -/
theorem follows_mapIdx [CommRing F] {free rates : Nat → F} {s : Recording F} {x : List F}
    {place : Nat → Index}
    (each : ∀ i < x.length, s.tape.Knows (place i) ∧ rates i = rate (s.tangents free) (place i)) :
    List.Forall₂ (Recording.Follows free s) (varied rates x) (x.mapIdx fun i c => ⟨c, place i⟩) := by
  apply List.forall₂_of_length_eq_of_get
  · simp [varied]
  · intro i before _
    rw [varied, List.length_mapIdx] at before
    obtain ⟨known, same⟩ := each i before
    simp only [varied, List.get_eq_getElem, List.getElem_mapIdx]
    exact ⟨rfl, known, same⟩

theorem independents_concat (x : List F) (c : F) :
    independents (x ++ [c]) = ((independents x).1.allocate,
      (independents x).2 ++ [⟨c, (independents x).1.size⟩]) := by
  simp [independents, List.foldl_append]

/-- The stage at which only the inputs are recorded. -/
theorem exists_inputs [CommRing F] (x : List F) (room : x.length < 2 ^ 32) :
    ∃ s : Recording F, s.tape = (independents x).1 ∧ s.tape.multipliers.size = 0 ∧
      origins s.history = List.replicate x.length .free ∧
      ∀ free, List.Forall₂ (Recording.Follows free s) (varied free x) (independents x).2 := by
  induction x using List.reverseRecOn with
  | nil => exact ⟨⟨{}, [], .blank⟩, rfl, rfl, rfl, fun _ => .nil⟩
  | append_singleton x c ih =>
    rw [List.length_append, List.length_singleton] at room
    obtain ⟨s, tape, blank, layout, follows⟩ := ih (Nat.lt_of_succ_lt room)
    have size : s.tape.size.toNat = x.length := by
      rw [s.recorded.size_eq, layout, List.length_replicate]
    let t : Recording F :=
      ⟨s.tape.allocate, s.history ++ [.independent], s.recorded.gain (.allocate (size ▸ room))⟩
    have after : s.Later t := ⟨_, rfl⟩
    have grown : origins t.history = List.replicate x.length .free ++ [.free] := by
      rw [← layout]
      simp [t, Record.origins]
    refine ⟨t, ?_, blank, ?_, fun free => ?_⟩
    · rw [independents_concat, ← tape]
    · rw [grown, List.length_append, List.length_singleton, List.replicate_succ']
    · rw [varied_concat, independents_concat, ← tape]
      refine List.rel_append ((follows free).imp fun _ _ old => old.later after) ?_
      have here : s.tape.size < t.tape.size := by
        rw [UInt32.lt_iff_toNat_lt, t.recorded.size_eq, grown, size]
        simp
      have new : (origins t.history)[x.length]? = some .free := by simp [grown]
      refine .cons ⟨rfl, .inr here, ?_⟩ .nil
      rw [rate, if_neg (t.ne_constant here), size]
      exact (tangentAt_free free new).symm

/-- The stage at which only the inputs are on the tape. They follow the point in every direction. -/
theorem exists_start [CommRing F] {x : List F} {spare : Nat} (places : x.length + spare < 2 ^ 32)
    (operands : 2 * spare < 2 ^ 32) :
    ∃ s : Recording F, s.tape = (independents x).1 ∧ s.Room spare ∧
      (∀ k < x.length, (origins s.history)[k]? = some .free) ∧
      ∀ free, List.Forall₂ (Recording.Follows free s) (varied free x) (independents x).2 := by
  obtain ⟨s, start, blank, layout, follows⟩ :=
    exists_inputs x ((Nat.le_add_right _ _).trans_lt places)
  refine ⟨s, start, ⟨?_, ?_⟩, fun k input => ?_, follows⟩
  · rw [s.recorded.size_eq, layout, List.length_replicate]
    exact places
  · rw [blank, Nat.zero_add]
    exact operands
  · rw [layout, List.getElem?_replicate, if_pos input]

namespace Recording

theorem Later.origin {s t : Recording F} (after : s.Later t) {k : Nat} {origin : Origin F}
    (here : (origins s.history)[k]? = some origin) : (origins t.history)[k]? = some origin := by
  obtain ⟨more, grown⟩ := after
  rw [grown, origins_append, List.getElem?_append_left (List.getElem?_eq_some_iff.mp here).1]
  exact here

/-- Runs that share the recorded side share its outcome. Either all end in the same fault, or all
succeed, and the tape is the same however the stages read it. -/
theorem Runs.share {ι α β : Type} [Nonempty ι] {related : ι → Recording F → α → β → Prop}
    {cost spare : Nat} {tape : Tape F} {s : ι → Recording F} (same : ∀ i, (s i).tape = tape)
    {m : ι → Except Fault α} {n : RecordM F β}
    (runs : ∀ i, Runs cost (related i) (s i) (m i) n) (room : ∀ i, (s i).Room (cost + spare)) :
    (∃ fault last, (∀ i, m i = .error fault) ∧
      ∀ journal, n.run.run ⟨some tape, journal⟩ = (.error fault, ⟨last, journal⟩)) ∨
    ∃ b last, (∀ journal, n.run.run ⟨some tape, journal⟩ = (.ok b, ⟨some last, journal⟩)) ∧
      ∀ i, ∃ a t, m i = .ok a ∧ t.tape = last ∧ (s i).Later t ∧ t.Room spare ∧
        related i t a b := by
  have failed (i : ι) {fault : Fault} (wrong : m i = .error fault) :
      ∃ last, ∀ journal, n.run.run ⟨some tape, journal⟩ = (.error fault, ⟨last, journal⟩) := by
    rw [← same i]
    exact (runs i).error wrong ((room i).weaken (Nat.le_add_right ..))
  have succeeded (i : ι) {a : α} (right : m i = .ok a) :
      ∃ t b, (s i).Later t ∧ t.Room spare ∧ related i t a b ∧
        ∀ journal, n.run.run ⟨some tape, journal⟩ = (.ok b, ⟨some t.tape, journal⟩) := by
    rw [← same i]
    exact (runs i).ok right (room i)
  obtain ⟨one⟩ := ‹Nonempty ι›
  cases first : m one with
  | error fault =>
    obtain ⟨last, ended⟩ := failed one first
    refine .inl ⟨fault, last, fun i => ?_, ended⟩
    cases other : m i with
    | error another =>
      obtain ⟨_, stopped⟩ := failed i other
      cases (stopped #[]).symm.trans (ended #[])
      rfl
    | ok a =>
      obtain ⟨t, b, -, -, -, ran⟩ := succeeded i other
      cases (ran #[]).symm.trans (ended #[])
  | ok a =>
    obtain ⟨t, b, -, -, -, ran⟩ := succeeded one first
    refine .inr ⟨b, t.tape, ran, fun i => ?_⟩
    cases other : m i with
    | error fault =>
      obtain ⟨_, stopped⟩ := failed i other
      cases (stopped #[]).symm.trans (ran #[])
    | ok c =>
      obtain ⟨u, d, after, left, here, went⟩ := succeeded i other
      have equal := (went #[]).symm.trans (ran #[])
      obtain rfl := Except.ok.inj (congrArg Prod.fst equal)
      have last := Option.some.inj (congrArg (fun result => result.2.tape) equal)
      exact ⟨c, u, rfl, last, after, left, here⟩

variable [ExactField F]

/-- The sweep gives the multipliers by which the rates of the inputs enter the seeded sum. -/
theorem weigh_eq_sum (t : Recording F) {n : Nat}
    (inputs : ∀ k < n, (origins t.history)[k]? = some .free) {seeds : List (Index × F)}
    (known : ∀ seed ∈ seeds, t.tape.Knows seed.1) {adjoints : Array F}
    (swept : t.tape.sweep seeds = .ok adjoints) {free : Nat → F}
    (still : ∀ k, n ≤ k → free k = 0) :
    weigh (t.tangents free) seeds = ∑ k ∈ Finset.range n, adjointAt adjoints k * free k := by
  obtain ⟨others, result, size, zeros, pairs⟩ := t.recorded.sweep_pairing known
  obtain rfl := Except.ok.inj (swept.symm.trans result)
  rw [tangents, ← pairs _ (t.recorded.obeys free),
    pairing_eq_sum_free (size.trans t.recorded.size_eq) zeros]
  symm
  apply Finset.sum_subset
  · intro k inside
    exact mem_freePlaces.mpr (inputs k (Finset.mem_range.mp inside))
  · intro k _ outside
    rw [still k (not_lt.mp fun below => outside (Finset.mem_range.mpr below)), mul_zero]

/-- The adjoint of an input is the seeded sum of the tangents in its unit direction. -/
theorem adjointAt_eq_weigh (t : Recording F) {n : Nat}
    (inputs : ∀ k < n, (origins t.history)[k]? = some .free) {seeds : List (Index × F)}
    (known : ∀ seed ∈ seeds, t.tape.Knows seed.1) {adjoints : Array F}
    (swept : t.tape.sweep seeds = .ok adjoints) {j : Nat} (input : j < n) :
    adjointAt adjoints j = weigh (t.tangents (Pi.single j 1)) seeds := by
  have still (k : Nat) (above : n ≤ k) : (Pi.single j 1 : Nat → F) k = 0 :=
    Pi.single_eq_of_ne (by omega) 1
  rw [t.weigh_eq_sum inputs known swept still, Finset.sum_eq_single j]
  · rw [Pi.single_eq_same, mul_one]
  · intro k _ other
    rw [Pi.single_eq_of_ne other, mul_zero]
  · intro outside
    exact absurd (Finset.mem_range.mpr input) outside

end Recording

/-- The seeds of a weighted sum of outputs: constants among them are left out. -/
def seedsOf (outputs : List (Traced F)) (weights : List F) : List (Index × F) :=
  (outputs.zip weights).filterMap fun (output, w) =>
    if output.isTracked then some (output.index, w) else none

theorem seedsOf_eq (outputs : List (Traced F)) (weights : List F) :
    seedsOf outputs weights = ((outputs.map Traced.index).zip weights).filter
      fun (i, _) => i != Index.constant := by
  induction outputs generalizing weights with
  | nil => rfl
  | cons a rest ih =>
    cases weights with
    | nil => rfl
    | cons w weights =>
      have step : seedsOf (a :: rest) (w :: weights) =
          if a.isTracked then (a.index, w) :: seedsOf rest weights else seedsOf rest weights := by
        rw [seedsOf, List.zip_cons_cons, List.filterMap_cons]
        dsimp only
        split_ifs <;> rfl
      rw [step, ih, List.map_cons, List.zip_cons_cons, List.filter_cons]
      rfl

private theorem mem_seedsOf {outputs : List (Traced F)} {weights : List F} {seed : Index × F}
    (member : seed ∈ seedsOf outputs weights) : ∃ a ∈ outputs, a.index = seed.1 := by
  obtain ⟨⟨a, w⟩, listed, chosen⟩ := List.mem_filterMap.mp member
  dsimp only at chosen
  split_ifs at chosen with tracked
  cases chosen
  exact ⟨a, (List.of_mem_zip listed).1, rfl⟩

theorem take_toList [Zero F] {adjoints : Array F} {n : Nat} (enough : n ≤ adjoints.size) :
    adjoints.toList.take n = (List.range n).map (adjointAt adjoints) := by
  apply List.ext_getElem
  · simp [enough]
  · intro j before _
    have inside : j < adjoints.size := by
      rw [List.length_take, Array.length_toList] at before
      omega
    rw [List.getElem_map, List.getElem_range, List.getElem_take, Array.getElem_toList, adjointAt,
      Array.getElem?_eq_getElem inside]
    rfl

section Sweep

variable [ExactField F]

/-- Weighing the places of numbers that are followed adds up their tangents. -/
theorem weigh_zip {free : Nat → F} {t : Recording F} {duals : List (Dual F)}
    {outputs : List (Traced F)} (follow : List.Forall₂ (Recording.Follows free t) duals outputs)
    (weights : List F) :
    weigh (t.tangents free) ((outputs.map Traced.index).zip weights) =
      ((duals.zip weights).map fun (d, w) => w * d.tangent).sum := by
  induction follow generalizing weights with
  | nil => rfl
  | @cons d a duals outputs here _ ih =>
    cases weights with
    | nil => rfl
    | cons w weights =>
      rw [List.map_cons, List.zip_cons_cons, List.zip_cons_cons, List.map_cons, List.sum_cons, ← ih,
        weigh_cons, weigh_singleton, ← here.tangent]

/-- Seeding the outputs adds up the tangents of the numbers that they follow. -/
theorem weigh_seedsOf {free : Nat → F} {t : Recording F} {duals : List (Dual F)}
    {outputs : List (Traced F)} (follow : List.Forall₂ (Recording.Follows free t) duals outputs)
    (weights : List F) :
    weigh (t.tangents free) (seedsOf outputs weights) =
      ((duals.zip weights).map fun (d, w) => w * d.tangent).sum := by
  rw [seedsOf_eq, weigh_filter, weigh_zip follow]

/-- In every direction the outputs follow dual numbers, at a stage of this tape at which its first
`n` variables are the inputs. The stages may differ from direction to direction. -/
def Covers (n : Nat) (tape : Tape F) (outputs : List (Traced F))
    (duals : (Nat → F) → List (Dual F)) : Prop :=
  ∀ free, ∃ t : Recording F, t.tape = tape ∧ (∀ k < n, (origins t.history)[k]? = some .free) ∧
    List.Forall₂ (Recording.Follows free t) (duals free) outputs

namespace Covers

variable {n : Nat} {tape : Tape F} {outputs : List (Traced F)} {duals : (Nat → F) → List (Dual F)}

theorem length_eq (covers : Covers n tape outputs duals) (free : Nat → F) :
    (duals free).length = outputs.length := by
  obtain ⟨t, -, -, follow⟩ := covers free
  exact follow.length_eq

theorem values_eq (covers : Covers n tape outputs duals) (free : Nat → F) :
    (duals free).map Dual.primal = outputs.map Traced.value := by
  obtain ⟨t, -, -, follow⟩ := covers free
  exact primal_of_follows follow

theorem knows (covers : Covers n tape outputs duals) : ∀ a ∈ outputs, tape.Knows a.index := by
  obtain ⟨t, rfl, -, follow⟩ := covers fun _ => 0
  intro a listed
  obtain ⟨d, -, here⟩ := exists_related follow a listed
  exact here.known

private theorem knows_seeds (covers : Covers n tape outputs duals) (weights : List F) :
    ∀ seed ∈ seedsOf outputs weights, tape.Knows seed.1 := by
  intro seed member
  obtain ⟨a, listed, place⟩ := mem_seedsOf member
  rw [← place]
  exact covers.knows a listed

/-- The adjoints of the inputs are the weighted sums of the tangents in their unit directions, and
in any direction of the inputs the weighted sum of the tangents combines them. -/
theorem exists_adjoints (covers : Covers n tape outputs duals) (weights : List F) :
    ∃ adjoints, tape.sweep (seedsOf outputs weights) = .ok adjoints ∧ n ≤ adjoints.size ∧
      (∀ j < n, adjointAt adjoints j =
        (((duals (Pi.single j 1)).zip weights).map fun (d, w) => w * d.tangent).sum) ∧
      ∀ free, (∀ k, n ≤ k → free k = 0) →
        (((duals free).zip weights).map fun (d, w) => w * d.tangent).sum =
          ∑ k ∈ Finset.range n, adjointAt adjoints k * free k := by
  have known := covers.knows_seeds weights
  obtain ⟨t, rfl, inputs, -⟩ := covers fun _ => 0
  obtain ⟨adjoints, swept, size, -, -⟩ := t.recorded.sweep_pairing known
  refine ⟨adjoints, swept, ?_, ?_, ?_⟩
  · rw [size, t.recorded.size_eq]
    by_contra! short
    have last := inputs _ short
    rw [List.getElem?_eq_none le_rfl] at last
    cases last
  · intro j input
    obtain ⟨u, same, free, follow⟩ := covers (Pi.single j 1)
    rw [← same] at known swept
    rw [u.adjointAt_eq_weigh free known swept input, weigh_seedsOf follow]
  · intro direction still
    obtain ⟨u, same, free, follow⟩ := covers direction
    rw [← same] at known swept
    rw [← weigh_seedsOf follow, u.weigh_eq_sum free known swept still]

/-- One sweep gives the weighted sum of the tangents in each unit direction. -/
theorem pullBack_eq (covers : Covers n tape outputs duals) {weights : List F}
    (fit : outputs.length = weights.length) :
    pullBack tape n outputs weights = .ok ((List.range n).map fun j =>
      (((duals (Pi.single j 1)).zip weights).map fun (d, w) => w * d.tangent).sum) := by
  obtain ⟨adjoints, swept, enough, entry, -⟩ := covers.exists_adjoints weights
  have entries := List.map_congr_left fun j input => entry j (List.mem_range.mp input)
  rw [pullBack, if_neg (not_not.mpr fit), ← entries, ← take_toList enough]
  change (do return (← tape.sweep (seedsOf outputs weights)).toList.take n) = _
  rw [swept]
  rfl

end Covers

end Sweep

end ImplicitDiff
