import ImplicitDiff.Proofs.Program.Thinning
import ImplicitDiff.Proofs.Tape.Layout

/-! # What programs record

A program on traced numbers whose inputs are on the tape only ever records operands that are on the
tape. What it leaves is a recorded tape again, whatever the arithmetic is, so it is laid out as
recorded tapes are, and sweeps stay within its arrays.
-/

namespace ImplicitDiff

variable {F : Type}

/-- The value of a traced number, without its place. -/
def Traced.plain (a : Traced F) : ViaReciprocal F := a.value

namespace Recording

/-- A traced number with the value `c` that is on the tape or constant. -/
structure Tracks (s : Recording F) (c : ViaReciprocal F) (a : Traced F) : Prop where
  value : c = a.plain
  known : s.tape.Knows a.index

theorem Tracks.later {s t : Recording F} {c : ViaReciprocal F} {a : Traced F}
    (tracks : s.Tracks c a) (after : s.Later t) : t.Tracks c a :=
  ⟨tracks.value, after.knows tracks.known⟩

/-- A statement with operands that are on the tape defines a number that is on it afterwards. -/
theorem runs_tracks {s : Recording F} (value : F) {terms : List (Index × F)}
    (known : ∀ term ∈ terms, s.tape.Knows term.1) (few : terms.length ≤ 2) :
    (recording F).Runs 1 Tracks s (pure value) (Traced.record value terms) := by
  by_cases fixed : ∀ term ∈ terms, term.1 = Index.constant
  · rw [Traced.record_of_constant value fixed]
    exact (recording F).weaken ((recording F).pure ⟨rfl, .inl rfl⟩) zero_le_one
  rw [Traced.record_of_tracked value fixed]
  refine ⟨fun {c spare} result room => ?_, fun none => (nomatch none)⟩
  cases result
  have enough : s.Room 1 := room.weaken (Nat.le_add_right ..)
  have grows := (s.gains_push known few enough).size_eq
  have here : s.tape.size < (s.push terms known few enough).tape.size := by
    rw [UInt32.lt_iff_toNat_lt, grows]
    exact Nat.lt_succ_self _
  exact ⟨s.push terms known few enough, ⟨value, s.tape.size⟩, ⟨_, rfl⟩,
    s.room_push known few room enough, ⟨rfl, .inr here⟩, fun _ => rfl⟩

theorem runs_tracks_one {s : Recording F} (value m : F) {i : Index} (known : s.tape.Knows i) :
    (recording F).Runs 1 Tracks s (pure value) (Traced.record value [(i, m)]) :=
  runs_tracks value (List.forall_mem_singleton.mpr known) one_le_two

end Recording

open Recording in
/-- Every operation on numbers that are on the tape gives one that is, those with plain numbers
included. -/
theorem recording_respects_tracks [Arith F] : (recording F).Respects (Tracks (F := F)) where
  later after tracks := tracks.later after
  value tracks := tracks.value
  lift _ _ := ⟨rfl, .inl rfl⟩
  neg {s a b} tracks := by
    obtain ⟨rfl, known⟩ := tracks
    exact runs_tracks_one _ _ known
  elementary {s a b} f tracks := by
    obtain ⟨rfl, known⟩ := tracks
    exact runs_tracks_one _ _ known
  operate {s a c b d} o left right := by
    obtain ⟨rfl, first⟩ := left
    obtain ⟨rfl, second⟩ := right
    have known (m n : F) : ∀ term ∈ [(b.index, m), (d.index, n)], s.tape.Knows term.1 := by
      simp [first, second]
    cases o <;> exact runs_tracks _ (known _ _) le_rfl
  operateRight {s a b} o c tracks := by
    obtain ⟨rfl, known⟩ := tracks
    cases o <;> exact runs_tracks_one _ _ known
  operateLeft {s a b} o c tracks := by
    obtain ⟨rfl, known⟩ := tracks
    cases o <;> exact runs_tracks_one _ _ known

/-- The values of inputs, without their places. -/
def Inputs.plain (inputs : Inputs F (Traced F)) : Inputs F (ViaReciprocal F) :=
  { inputs with
    unknowns := inputs.unknowns.map Traced.plain
    parameters := inputs.parameters.map Traced.plain }

/-- **A program records in order.** If its inputs are on a recorded tape that has room, it ends in a
fault, or it leaves a recorded tape that holds its outputs. -/
theorem Recording.eval [Arith F] (s : Recording F) (f : Function F)
    (room : s.Room f.program.length) {inputs : Inputs F (Traced F)}
    (known : ∀ a ∈ inputs.unknowns ++ inputs.parameters, s.tape.Knows a.index) :
    (∃ fault last, ∀ journal, (f.eval (M := RecordM F) inputs).run.run ⟨some s.tape, journal⟩ =
      (.error fault, ⟨last, journal⟩)) ∨
    ∃ t outputs, s.Later t ∧ (∀ a ∈ outputs, t.tape.Knows a.index) ∧
      ∀ journal, (f.eval (M := RecordM F) inputs).run.run ⟨some s.tape, journal⟩ =
        (.ok outputs, ⟨some t.tape, journal⟩) := by
  have tracks (items : List (Traced F)) (on : ∀ a ∈ items, s.tape.Knows a.index) :
      List.Forall₂ s.Tracks (items.map Traced.plain) items := by
    rw [List.forall₂_map_left_iff, List.forall₂_same]
    exact fun a member => ⟨rfl, on a member⟩
  have related : inputs.plain.Related s.Tracks inputs :=
    { unknowns := tracks _ fun a member => known a (List.mem_append_left _ member)
      parameters := tracks _ fun a member => known a (List.mem_append_right _ member)
      reals := rfl
      integers := rfl }
  have runs := recording_respects_tracks.function related f
  cases plain : f.eval (M := Except Fault) inputs.plain with
  | error fault =>
    obtain ⟨last, ended⟩ := runs.error plain room
    exact .inl ⟨fault, last, ended⟩
  | ok values =>
    have room : s.Room (f.program.length + 0) := room
    obtain ⟨t, outputs, after, -, same, ran⟩ := runs.ok plain room
    refine .inr ⟨t, outputs, after, fun a member => ?_, ran⟩
    obtain ⟨_, -, here⟩ := exists_related same a member
    exact here.known

/-- **The layout of a tape.** On every recorded tape the arrays hang together, and no variable is
defined twice. So every sweep from seeds that are constants or variables of the tape succeeds, with
one adjoint for each variable; and a program on variables of the tape leaves a recorded tape, of
which all this holds again. -/
theorem laidOut_and_swept [Arith F] {t : Tape F} {history : List (Record F)}
    (recorded : t.Recorded history) :
    t.LaidOut (origins history) ∧
    (∀ (k i j : Nat) (s s' : Statement F), t.statements[i]? = some s →
      t.statements[j]? = some s' → s.Defines k → s'.Defines k → i = j) ∧
    (∀ seeds : List (Index × F), (∀ seed ∈ seeds, t.Knows seed.1) →
      ∃ adjoints, t.sweep seeds = .ok adjoints ∧ adjoints.size = t.size.toNat) ∧
    ∀ (f : Function F) (inputs : Inputs F (Traced F)),
      t.size.toNat + f.program.length < 2 ^ 32 →
      t.multipliers.size + 2 * f.program.length < 2 ^ 32 →
      (∀ a ∈ inputs.unknowns ++ inputs.parameters, t.Knows a.index) →
      (∃ fault last, ∀ journal, (f.eval (M := RecordM F) inputs).run.run ⟨some t, journal⟩ =
        (.error fault, ⟨last, journal⟩)) ∨
      ∃ next more outputs, next.Recorded (history ++ more) ∧ (∀ a ∈ outputs, next.Knows a.index) ∧
        ∀ journal, (f.eval (M := RecordM F) inputs).run.run ⟨some t, journal⟩ =
          (.ok outputs, ⟨some next, journal⟩) := by
  refine ⟨recorded.laidOut, fun _ _ _ _ _ => recorded.laidOut.defines_unique,
    fun seeds known => recorded.inOrder.sweep_ok known, ?_⟩
  intro f inputs places operands known
  let s : Recording F := ⟨t, history, recorded⟩
  obtain stopped | ⟨u, outputs, ⟨more, grown⟩, on, ran⟩ := s.eval f ⟨places, operands⟩ known
  · exact .inl stopped
  · exact .inr ⟨u.tape, more, outputs, grown ▸ u.recorded, on, ran⟩

/-- A node with a repeated parameter and a constant one between statements, then an independent
variable, then a statement on both, and a program that reads the node's second output. -/
theorem laidOut_and_swept_with_node :
    ∃ (t : Tape ℚ) (history : List (Record ℚ)), t.Recorded history ∧ t.size = 6 ∧
      t.LaidOut (origins history) ∧
      (∃ adjoints, t.sweep [(5, 1), (3, 2), (Index.constant, 7), (3, 1)] = .ok adjoints ∧
        adjoints.size = 6) ∧
      ∃ (next : Tape ℚ) (more : List (Record ℚ)) (outputs : List (Traced ℚ)),
        next.Recorded (history ++ more) ∧ (∀ a ∈ outputs, next.Knows a.index) ∧
        ∀ journal, (Function.eval (M := RecordM ℚ)
          { program := [.unknown 0, .parameter 0, .operate .mul 0 1], outputs := [.always 2] }
          ({ unknowns := [⟨2, 3⟩], parameters := [Traced.constant 5] } :
            Inputs ℚ (Traced ℚ))).run.run
          ⟨some t, journal⟩ = (.ok outputs, ⟨some next, journal⟩) := by
  have first := Tape.Recorded.blank (F := ℚ) |>.gain (.allocate (by decide))
  have second := first.gain
    (@Tape.Gains.push ℚ _ [(0, 3), (0, 4), (Index.constant, 9)]
      (by decide) (by decide) (by decide))
  have third := second.gain
    (@Tape.Gains.pushNode ℚ _ _ [0, Index.constant, 1, 0] [[1, 2, 3, 4], [0, 5, 6, 7]] _
      (Node.build_eq_ok_iff.mpr ⟨by decide, by decide, rfl⟩)
      (Tape.pushNode_eq_ok_iff.mpr ⟨List.forall_iff_forall_mem.mp (by decide), rfl⟩) (by decide))
  have fourth := third.gain (.allocate (by decide))
  have fifth := fourth.gain
    (@Tape.Gains.push ℚ _ [(2, -1), (4, 5)] (by decide) (by decide) (by decide))
  obtain ⟨laid, -, swept, runs⟩ := laidOut_and_swept fifth
  refine ⟨_, _, fifth, rfl, laid, swept _ (by decide), ?_⟩
  refine (runs _ _ (by decide) (by decide) (by decide)).resolve_left ?_
  rintro ⟨fault, last, ended⟩
  cases ended #[]

end ImplicitDiff
