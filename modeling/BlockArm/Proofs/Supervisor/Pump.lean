/-
# The pump when a script begins

The world of a challenge begins with an empty gripper, but the pump of the arm may be on.  Going
home switches it off; a run that gets through parks the arm and leaves the pump alone, and the next
script begins from there.  The pump is therefore on exactly where a statement that grips was not
followed by one that releases, among those of the runs completed since the arm was last brought
home.

* `Command.pumpAfterAll_eq_true_iff`: when a program leaves the pump on;
* `Session.pumpOn_of_begun?`: when a script begins with the pump on;
* `Session.exists_begun_pumpOn`: a script that does.
-/
import BlockArm.Proofs.Supervisor.Beginning
import BlockArm.Proofs.World.Play

namespace BlockArm

/-! ## What a program leaves of the pump -/

namespace Command

/-- Of the commands only the one that grips switches the pump on, and only the one that releases
switches it off. -/
theorem pumpAfter_eq_true_iff (on : Bool) (c : Command) :
    c.pumpAfter on = true ↔ c = .grip ∨ on = true ∧ c ≠ .release := by
  cases c <;> simp [pumpAfter]

/-- A program leaves the pump on if it grips and does not release afterwards, or if the pump was on
and it does not release. -/
theorem pumpAfterAll_eq_true_iff (program : Program) : ∀ on : Bool,
    pumpAfterAll on program = true ↔
      (∃ earlier statement later, program = earlier ++ statement :: later ∧
        statement.command = .grip ∧ ∀ s ∈ later, s.command ≠ .release) ∨
      on = true ∧ ∀ s ∈ program, s.command ≠ .release := by
  induction program with
  | nil =>
    intro on
    simp [pumpAfterAll]
  | cons first rest ih =>
    intro on
    have hcons : pumpAfterAll on (first :: rest) =
        pumpAfterAll (first.command.pumpAfter on) rest := rfl
    rw [hcons, ih, pumpAfter_eq_true_iff]
    constructor
    · rintro (⟨earlier, statement, later, rfl, hgrip, hlater⟩ | ⟨hgrip | ⟨hon, hfirst⟩, hrest⟩)
      · exact .inl ⟨first :: earlier, statement, later, rfl, hgrip, hlater⟩
      · exact .inl ⟨[], first, rest, rfl, hgrip, hrest⟩
      · exact .inr ⟨hon, List.forall_mem_cons.mpr ⟨hfirst, hrest⟩⟩
    · rintro (⟨_ | ⟨_, earlier⟩, statement, later, heq, hgrip, hlater⟩ | ⟨hon, hall⟩)
      · obtain ⟨rfl, rfl⟩ := List.cons.inj heq
        exact .inr ⟨.inl hgrip, hlater⟩
      · obtain ⟨-, rfl⟩ := List.cons.inj heq
        exact .inl ⟨earlier, statement, later, rfl, hgrip, hlater⟩
      · obtain ⟨hfirst, hrest⟩ := List.forall_mem_cons.mp hall
        exact .inr ⟨.inr ⟨hon, hfirst⟩, hrest⟩

end Command

/-! ## The pump and the world that a script begins with -/

/-- A challenge begins with an empty gripper. -/
theorem Supervisor.held_of_begun? {σ : Type} {st : Station} {d : Device σ} {s t : Supervisor σ}
    {challenge : Option Challenge} {w : World}
    (h : s.begun? st d challenge = some (some w, t)) : w.held = none := by
  have hworld : challenge.mapM World.ofChallenge = .ok (some w) := by
    unfold begun? at h
    split at h
    · simp at h
    · next world hworld =>
      simp only at h
      split at h
      · obtain ⟨rfl, -⟩ := Prod.mk.inj (Option.some.inj h)
        exact hworld
      · split at h
        · obtain ⟨rfl, -⟩ := Prod.mk.inj (Option.some.inj h)
          exact hworld
        · simp at h
        · simp at h
  cases challenge with
  | none => exact absurd (Except.ok.inj hworld).symm (Option.some_ne_none w)
  | some c =>
    rw [Option.mapM_some] at hworld
    cases hc : World.ofChallenge c with
    | error fault =>
      rw [hc] at hworld
      exact absurd hworld (by simp)
    | ok w' =>
      rw [hc] at hworld
      obtain rfl : w' = w := Option.some.inj (Except.ok.inj hworld)
      exact World.held_ofChallenge hc

namespace Session

variable {st : Station}

/-- **The pump when a script begins.**  Whatever was asked of the supervisor of a recording device,
whose calls may fail from any of them on, and whenever somebody asked for a stop: when a script begins,
the pump is on exactly if, among the statements of the runs completed since the arm was last brought
home, one grips and none releases after it.  Where the arm is brought home before the script, the pump
is off.  The world of a challenge begins with an empty gripper in either case.  Here, too, all requests
before the script were answered. -/
theorem pumpOn_of_begun? {workspace : Workspace} {settings : Settings}
    (h : Station.build workspace settings = .ok st) (asks : Call → Recorder → Bool)
    (rig : Rig Recorder) (requests : List Request)
    (hanswers : (start rig).answersAll st (.attended asks) requests = true)
    {challenge : Option Challenge} {world : Option World} {t : Supervisor Recorder}
    (hbegun : ((start rig).afterAll st (.attended asks) requests).supervisor.begun? st
      (.attended asks) challenge = some (world, t)) :
    (t.rig.device.pumpOn = true ↔ ∃ earlier statement later,
      sinceBegun (.attended asks) ((start rig).afterAll st (.attended asks) requests).supervisor
        ((start rig).sinceAll st (.attended asks) [] requests) = earlier ++ statement :: later ∧
      statement.command = .grip ∧ ∀ s ∈ later, s.command ≠ .release) ∧
    ((((start rig).afterAll st (.attended asks) requests).supervisor.wait
        (.attended asks)).2.homed = false →
      t.rig.device.pumpOn = false) ∧
    ∀ w, world = some w → w.held = none := by
  have hhome := (Station.homePose_of_build h).1
  have hparked :=
    ((knows_start asks rig).afterAll hhome requests hanswers).parked_of_begun? hhome hbegun
  refine ⟨?_, ?_, ?_⟩
  · rw [hparked.pumpOn_eq, Command.pumpAfterAll_eq_true_iff]
    simp only [Bool.false_eq_true, false_and, or_false]
  · intro haway
    rw [hparked.pumpOn_eq, sinceBegun, haway]
    rfl
  · rintro w rfl
    exact Supervisor.held_of_begun? hbegun

/-- A script that switches the pump on, and one that leaves it alone; the stop that was asked for in the
meantime is taken back. -/
def gripThenLift : List Request :=
  [.runScript "pumpe_an()".toList none, .setStop false, .runScript liftSource none, .setStop false]

/-- The pump is on when the next script begins, since nothing was released after the grip, although
somebody asks for a stop whenever the arm goes up or down with the pump switched on. -/
theorem pumpOn_gripThenLift : ∃ t,
    ((start (Station.standard.rig {})).afterAll .standard (.attended asksWhilePumping)
      gripThenLift).supervisor.begun? .standard (.attended asksWhilePumping) none =
        some (none, t) ∧
    t.rig.device.pumpOn = true ∧
    ∃ earlier statement later, sinceBegun (.attended asksWhilePumping)
      ((start (Station.standard.rig {})).afterAll .standard (.attended asksWhilePumping)
        gripThenLift).supervisor
      ((start (Station.standard.rig {})).sinceAll .standard (.attended asksWhilePumping) []
        gripThenLift) = earlier ++ statement :: later ∧
      statement.command = .grip ∧ ∀ s ∈ later, s.command ≠ .release := by
  have hbegun : (((start (Station.standard.rig {})).afterAll .standard
      (.attended asksWhilePumping) gripThenLift).supervisor.begun? .standard
        (.attended asksWhilePumping) none).map
        (fun (world, t) => (world.isSome, t.rig.device.pumpOn)) = some (false, true) := by
    decide +kernel
  obtain ⟨⟨world, t⟩, heq, hpair⟩ := Option.map_eq_some_iff.mp hbegun
  obtain ⟨hworld, hpump⟩ := Prod.mk.inj hpair
  obtain rfl : world = none := by simpa using hworld
  have hanswers : (start (Station.standard.rig {})).answersAll .standard
      (.attended asksWhilePumping) gripThenLift = true := by
    decide +kernel
  exact ⟨t, heq, hpump, (pumpOn_of_begun? Station.build_standard asksWhilePumping _ gripThenLift
    hanswers heq).1.mp hpump⟩

/-- A challenge without blocks. -/
def emptyBoard : Challenge := { name := "empty" }

/-- After a script that grips, a challenge begins with the pump on and with an empty gripper in its
world. -/
theorem exists_begun_pumpOn : ∃ w t,
    (start (Station.standard.rig {})).answersAll .standard .recorder
      [.runScript "pumpe_an()".toList none] = true ∧
    ((start (Station.standard.rig {})).afterAll .standard .recorder
      [.runScript "pumpe_an()".toList none]).supervisor.begun? .standard .recorder
        (some emptyBoard) = some (some w, t) ∧
    t.rig.device.pumpOn = true ∧ w.held = none := by
  have hbegun : (((start (Station.standard.rig {})).afterAll .standard .recorder
      [.runScript "pumpe_an()".toList none]).supervisor.begun? .standard .recorder
        (some emptyBoard)).map (fun (world, t) => (world.isSome, t.rig.device.pumpOn)) =
      some (true, true) := by
    decide +kernel
  obtain ⟨⟨world, t⟩, heq, hpair⟩ := Option.map_eq_some_iff.mp hbegun
  obtain ⟨hworld, hpump⟩ := Prod.mk.inj hpair
  obtain ⟨w, rfl⟩ := Option.isSome_iff_exists.mp hworld
  exact ⟨w, t, by decide +kernel, heq, hpump, Supervisor.held_of_begun? heq⟩

end Session

end BlockArm
