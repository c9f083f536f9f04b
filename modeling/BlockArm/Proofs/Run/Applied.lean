/-
# The statements that count

A run may end after any number of statements: because all of them were carried out, because a stop
was asked for, or because a statement or the parking failed.  In each case the world is the one that
its applied statements alone would have made.

* `Effect.world_of_apply_error`: an effect that fails leaves the blocks as they were;
* `Scene.world_of_perform`: a statement that does not succeed leaves the world as it was;
* `Scene.performAll_take`: the applied statements, run on their own, make the same world;
* `Scene.world_run_eq_take`: so does a whole run of them.
-/
import BlockArm.Proofs.Run.Lockstep
import BlockArm.Proofs.World.Occupancy

namespace BlockArm

/-! ## What fails leaves no trace -/

/-- An effect that fails leaves the blocks, the noted cells and the gripper as they were. -/
theorem Effect.world_of_apply_error {e : Effect} {w : World} {fault : Fault}
    (h : (e.apply w).1 = .error fault) : (e.apply w).2 = w := by
  cases e with
  | grip c =>
    rcases w.grip_cases c with ⟨f, heq⟩ | ⟨id, b, -, -, -, heq⟩
    · simp only [apply, heq]
    · simp [apply, heq] at h
  | release c =>
    rcases w.release_cases c with ⟨f, heq⟩ | ⟨b, -, -, heq⟩
    · simp only [apply, heq]
    · simp [apply, heq] at h
  | turn degrees =>
    simp only [apply] at h ⊢
    by_cases hturn : degrees ≠ 0 ∧ w.isHolding = true
    · rw [if_pos hturn] at h ⊢
      rcases w.turnHeld_cases degrees with ⟨f, heq⟩ | ⟨b, -, heq⟩
      · rw [heq]
      · simp only [heq] at h
        exact absurd h (by simp)
    · rw [if_neg hturn]

namespace Scene

variable {σ : Type}

/-- A statement that does not succeed leaves the world as it was. -/
theorem world_of_perform (st : Station) (d : Device σ) (statement : Statement) {s : Scene σ}
    (h : (perform st d statement s).1 ≠ .value ()) :
    (perform st d statement s).2.world = s.world := by
  obtain ⟨rig, world⟩ := s
  simp only [perform] at h ⊢
  rcases hexec : (st.plan rig.arm statement).exec d rig with ⟨outcome, after⟩
  rw [hexec] at h
  cases outcome with
  | fault fault => rfl
  | broken b => rfl
  | value effect =>
    cases world with
    | none => exact absurd rfl h
    | some w =>
      simp only [affect] at h ⊢
      rcases happly : effect.apply w with ⟨result, w'⟩
      rw [happly] at h
      cases result with
      | error fault =>
        have hsame := Effect.world_of_apply_error (e := effect) (w := w) (by rw [happly])
        rw [happly] at hsame
        exact congrArg some hsame
      | ok message => cases message <;> exact absurd rfl h

/-! ## The applied statements on their own -/

/-- The number of applied statements lies between the number at the start and all of them. -/
theorem applied_performAll (st : Station) (d : Device σ) (program : Program) :
    ∀ (n : Nat) (s : Scene σ), n ≤ (performAll st d n program s).1.applied ∧
      (performAll st d n program s).1.applied ≤ n + program.length := by
  induction program with
  | nil =>
    intro n s
    exact ⟨Nat.le_refl n, Nat.le_refl n⟩
  | cons statement rest ih =>
    intro n s
    rw [performAll, List.length_cons]
    split
    · exact ⟨Nat.le_refl n, Nat.le_add_right n _⟩
    · split
      · next after _ =>
        have := ih (n + 1) after
        omega
      · exact ⟨Nat.le_refl n, Nat.le_add_right n _⟩
      · exact ⟨Nat.le_refl n, Nat.le_add_right n _⟩

/-- The applied statements, carried out on their own in a scene that agrees, succeed all of them and
make the same world. -/
theorem performAll_take (st : Station) (d : Device σ) (program : Program) :
    ∀ (n : Nat) (s s' : Scene σ), s.Agrees s' →
      ∃ t, performAll st d n (program.take ((performAll st d n program s).1.applied - n)) s' =
          (⟨.value true, (performAll st d n program s).1.applied⟩, t) ∧
        t.world = (performAll st d n program s).2.world := by
  -- the induction follows the program; a statement that is not applied leaves the world alone
  induction program with
  | nil =>
    intro n s s' h
    refine ⟨s', ?_, h.world.symm⟩
    simp only [List.take_nil, performAll]
  | cons statement rest ih =>
    intro n s s' h
    have hperform := perform_agrees st d statement h
    have hworld := world_of_perform st d statement (s := s)
    have hstop := h.rig.stop
    rw [performAll]
    by_cases hs : s.rig.stop = true
    · rw [if_pos hs]
      refine ⟨s', ?_, h.world.symm⟩
      simp only [Nat.sub_self, List.take_zero, performAll]
    · rw [if_neg hs]
      rcases h₁ : perform st d statement s with ⟨outcome, after⟩
      rcases h₂ : perform st d statement s' with ⟨outcome', after'⟩
      rw [h₁, h₂] at hperform
      rw [h₁] at hworld
      obtain ⟨houtcome, hafter⟩ := hperform
      obtain rfl : outcome = outcome' := houtcome
      cases outcome with
      | value u =>
        obtain ⟨t, ht, htworld⟩ := ih (n + 1) after after' hafter
        have hle := (applied_performAll st d rest (n + 1) after).1
        refine ⟨t, ?_, htworld⟩
        simp only
        rw [show (performAll st d (n + 1) rest after).1.applied - n =
            (performAll st d (n + 1) rest after).1.applied - (n + 1) + 1 by omega,
          List.take_succ_cons, performAll, if_neg (hstop ▸ hs), h₂]
        exact ht
      | fault fault =>
        refine ⟨s', ?_, ?_⟩
        · simp only [Nat.sub_self, List.take_zero, performAll]
        · exact h.world.symm.trans (hworld (by simp)).symm
      | broken b =>
        refine ⟨s', ?_, ?_⟩
        · simp only [Nat.sub_self, List.take_zero, performAll]
        · exact h.world.symm.trans (hworld (by simp)).symm

/-! ## Whole runs -/

/-- Parking and judging do not touch the world. -/
theorem world_conclude (st : Station) (d : Device σ) (report : Report) (s : Scene σ) :
    (conclude st d report s).2.world = s.world := by
  unfold conclude
  rcases st.park.exec d s.rig with ⟨outcome, rig⟩
  cases outcome <;> rfl

/-- A report of the end of a run tells how many statements were applied. -/
theorem applied_conclude {st : Station} {d : Device σ} {n : Nat} {s : Scene σ} {report : Report}
    (h : (conclude st d (.underway n) s).1 = .ok report) : report.applied = n := by
  unfold conclude at h
  rcases hpark : st.park.exec d s.rig with ⟨outcome, rig⟩
  rw [hpark] at h
  cases outcome with
  | value u => exact (Except.ok.inj h) ▸ rfl
  | fault fault => exact (Except.ok.inj h) ▸ rfl
  | broken b => simp at h

/-- A run leaves the world of its statements, and its report tells how many were applied. -/
theorem run_performAll (st : Station) (d : Device σ) (program : Program) (s : Scene σ) :
    (run st d program s).2.world = (performAll st d 0 program (s.begin program)).2.world ∧
    ∀ report, (run st d program s).1 = .ok report →
      report.applied = (performAll st d 0 program (s.begin program)).1.applied := by
  unfold run
  rcases performAll st d 0 program (s.begin program) with ⟨⟨outcome, n⟩, t⟩
  cases outcome with
  | value all =>
    cases all with
    | true => exact ⟨world_conclude st d _ t, fun report h => applied_conclude h⟩
    | false => exact ⟨rfl, fun report h => (Except.ok.inj h) ▸ rfl⟩
  | fault fault => exact ⟨rfl, fun report h => (Except.ok.inj h) ▸ rfl⟩
  | broken b => exact ⟨rfl, fun report h => by simp at h⟩

/-- **Only applied statements count.**  However a run ends, its world is the one that a run of its
applied statements alone leaves, from the same scene; that run applies all of them.  A statement
that fails, at whichever of its steps, leaves the world as it was. -/
theorem world_run_eq_take {st : Station} {d : Device σ} {program : Program} {s : Scene σ}
    {report : Report} (h : (run st d program s).1 = .ok report) :
    report.applied ≤ program.length ∧
    (run st d program s).2.world = (run st d (program.take report.applied) s).2.world ∧
    (∀ short, (run st d (program.take report.applied) s).1 = .ok short →
      short.applied = report.applied) ∧
    ∀ (statement : Statement) (t : Scene σ),
      (perform st d statement t).1 ≠ .value () → (perform st d statement t).2.world = t.world := by
  obtain ⟨hworld, happlied⟩ := run_performAll st d program s
  have hn := happlied report h
  -- the two runs announce different programs, which does not count
  have hagrees := (begin_agrees program s).trans (begin_agrees (program.take report.applied) s).symm
  obtain ⟨t, ht, htworld⟩ := performAll_take st d program 0 _ _ hagrees
  rw [Nat.sub_zero, ← hn] at ht
  obtain ⟨hworld', happlied'⟩ := run_performAll st d (program.take report.applied) s
  rw [ht] at hworld' happlied'
  refine ⟨?_, ?_, happlied', ?_⟩
  · have hle := (applied_performAll st d program 0 (s.begin program)).2
    omega
  · rw [hworld, hworld', htworld]
  · intro statement t hperform
    exact world_of_perform st d statement hperform

/-- A scene at home in which a board of two cells is held. -/
def boardHeld : Scene Recorder where
  rig := Station.standard.rig {}
  world := some
    { name := "carrying", floorLevel := 1, lying := ∅, occupied := ∅, goal := []
      held := some (.place 0 ⟨"board", 2, 1⟩ ⟨3, 8, 2⟩ 0) }

/-- A script whose grip fails while the board is held. -/
def turnGripTurn : Program := [⟨1, .turn 90⟩, ⟨2, .grip⟩, ⟨3, .turn 90⟩]

/-- The held board is turned and the grip fails, so that only the first statement counts. -/
theorem world_run_boardHeld : ∃ report,
    (run .standard .recorder turnGripTurn boardHeld).1 = .ok report ∧ report.applied = 1 ∧
    (run .standard .recorder turnGripTurn boardHeld).2.world =
      (run .standard .recorder (turnGripTurn.take report.applied) boardHeld).2.world := by
  have happlied : (run .standard .recorder turnGripTurn boardHeld).1.toOption.map
      (·.applied) = some 1 := by
    decide +kernel
  rcases hrun : (run .standard .recorder turnGripTurn boardHeld).1 with b | report
  · rw [hrun] at happlied
    exact absurd happlied (by simp [Except.toOption])
  · rw [hrun] at happlied
    exact ⟨report, rfl, Option.some.inj happlied, (world_run_eq_take hrun).2.1⟩

end Scene

end BlockArm
