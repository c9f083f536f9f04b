/-
# Belief, device and blocks agree

Three records are kept of what an arm does: the belief of the run, what the recording device has
tracked, and the gripper of the block world.  If the arm is where it is believed to be and the pump
is on just while a block is held, then every statement that succeeds leaves it so, however far the
arm went in between, and so does a run that was not cut short by a fault.

* `Scene.InTune`: the three records agree;
* `Effect.isHolding_apply`: the blocks take a change of the pump in the same way;
* `Station.ensures_follows_plan`: statements keep belief and device together;
* `Scene.inTune_run`: statements and runs leave the records in agreement.
-/
import BlockArm.Proofs.Run.Recording
import BlockArm.Proofs.World.Occupancy

namespace BlockArm

/-! ## Statements -/

/-- The device is where the arm is believed to be, with the pump on or off. -/
structure Recorder.Follows (on : Bool) (r : Recorder) (arm : ArmState) : Prop where
  pose_eq : r.pose = arm.pose
  wrist_eq : r.wrist = arm.wrist
  pumpOn_eq : r.pumpOn = on

/-- Whether the pump is on after a command with an effect, and whether a block is held. -/
def Effect.pumpAfter (on : Bool) : Effect → Bool
  | .grip _ => true
  | .release _ => false
  | .turn _ => on

/-- An effect that succeeds makes of the held block what its command made of the pump. -/
theorem Effect.isHolding_apply {e : Effect} {w after : World} {message : Option String}
    (h : e.apply w = (.ok message, after)) : after.isHolding = e.pumpAfter w.isHolding := by
  cases e with
  | grip c =>
    rcases w.grip_cases c with ⟨fault, hgrip⟩ | ⟨id, b, -, -, -, hgrip⟩
    · simp [apply, hgrip] at h
    · simp only [apply, hgrip, Prod.mk.injEq] at h
      rw [← h.2]
      rfl
  | release c =>
    rcases w.release_cases c with ⟨fault, hrelease⟩ | ⟨b, -, -, hrelease⟩
    · simp [apply, hrelease] at h
    · simp only [apply, hrelease, Prod.mk.injEq] at h
      rw [← h.2, World.isHolding, World.held_laid]
      rfl
  | turn degrees =>
    rw [apply] at h
    split at h
    · rcases w.turnHeld_cases degrees with ⟨fault, hturn⟩ | ⟨b, hheld, hturn⟩
      · simp [hturn] at h
      · simp only [hturn, Prod.mk.injEq] at h
        rw [← h.2, pumpAfter, World.isHolding, World.isHolding, hheld]
        rfl
    · obtain rfl := (Prod.mk.inj h).2
      rfl

namespace Station

open Recorder Plan

variable {st : Station} {on : Bool} {r : Recorder} {arm : ArmState}

/-- The arm follows on a leg of its way. -/
theorem ensures_follows_travel (h : r.Follows on arm) (x y : Int32) :
    (st.travel arm x y).Ensures .recorder (fun v r arm => arm = v.1 ∧ r.Follows on arm)
      (fun _ _ => True) r arm := by
  unfold travel
  cases hspot : st.workspace.spotAt x y arm.pose.z with
  | error fault => trivial
  | ok spot =>
    simp only [Plan.ofExcept, bind_eq, done_bind, ensures_bind]
    refine ensures_act_recorder fun _ => ?_
    refine ensures_act_recorder fun _ => ?_
    -- the height is the one that the device has kept
    have hpose : { r.pose with x := spot.x, y := spot.y } = Pose.above spot arm.pose.z := by
      rw [h.pose_eq]
      rfl
    exact ⟨rfl, hpose, rfl, h.pumpOn_eq⟩

/-- A sweep leaves the arm where it was, with the wrist turned. -/
theorem ensures_follows_sweepTo (high step : Float) (n : Nat) :
    ∀ (angle : Float) {r : Recorder}, r.pose = arm.pose → r.pumpOn = on →
      (sweepTo high step n angle).Ensures .recorder
        (fun _ r arm' => arm' = arm ∧ r.pose = arm.pose ∧ r.pumpOn = on) (fun _ _ => True) r
          arm := by
  induction n with
  | zero =>
    intro angle r _ _
    trivial
  | succ n ih =>
    intro angle r hpose hpump
    unfold sweepTo
    split
    · refine (?_ : ((act (.setWrist angle)).bind fun _ =>
        sweepTo high step n (angle + step)).Ensures .recorder _ _ r arm)
      rw [ensures_bind]
      exact ensures_act_recorder fun _ => ih (angle + step) hpose hpump
    · exact ⟨rfl, hpose, hpump⟩

/-- The arm follows on all legs of a tour. -/
theorem ensures_follows_visit (columns : List (Int32 × Int32)) :
    ∀ (drift : Int32) {r : Recorder} {arm : ArmState}, r.Follows on arm →
      (st.visit arm drift columns).Ensures .recorder (fun _ => Follows on) (fun _ _ => True) r
        arm := by
  induction columns with
  | nil =>
    intro drift r arm h
    exact h
  | cons column columns ih =>
    intro drift r arm h
    unfold visit
    rw [bind_eq, ensures_bind]
    refine (ensures_follows_travel h _ _).mono ?_ fun _ _ h => h
    rintro ⟨there, setting⟩ r' arm' ⟨rfl, h'⟩
    simp only [bind_eq, ensures_bind, ensures_warnOf]
    refine ensures_checked (fun _ _ => ?_) trivial
    exact ensures_checked (fun _ _ => ih _ h') trivial

theorem ensures_follows_diagnose (h : r.Follows on arm) (line : Nat) (arguments : List Int32) :
    (st.diagnose arm line arguments).Ensures .recorder
      (fun effect r arm => effect.pumpAfter on = on ∧ r.Follows on arm) (fun _ _ => True) r
        arm := by
  unfold diagnose
  split
  · unfold centerWrist
    simp only [bind_eq, ensures_bind, ensures_assume]
    refine ensures_act_recorder fun _ => ?_
    exact ensures_checked (fun _ _ => ⟨rfl, h.pose_eq, rfl, h.pumpOn_eq⟩) trivial
  · split
    · unfold sweep
      simp only [bind_eq, ensures_bind]
      refine (ensures_follows_sweepTo _ _ _ _ h.pose_eq h.pumpOn_eq).mono ?_ fun _ _ h => h
      -- the sweep is over, and the wrist is turned back
      rintro - r' arm' ⟨rfl, hpose, hpump⟩
      exact ensures_act_recorder fun _ => ⟨rfl, hpose, rfl, hpump⟩
    · split
      · unfold tour
        rw [bind_eq, ensures_bind]
        exact (ensures_follows_visit _ 0 h).mono (fun _ _ _ h => ⟨rfl, h⟩) fun _ _ h => h
      · trivial

/-- A statement that succeeds leaves belief and device together, with the pump as its effect has
it. -/
theorem ensures_follows_plan (st : Station) (h : r.Follows on arm) (statement : Statement) :
    (st.plan arm statement).Ensures .recorder
      (fun effect r arm => r.Follows (effect.pumpAfter on) arm) (fun _ _ => True) r arm := by
  obtain ⟨line, command⟩ := statement
  refine (?_ : (st.commandPlan arm line command).Ensures .recorder _ _ r arm)
  cases command with
  | move x y =>
    refine (?_ : (st.move arm x y).Ensures .recorder _ _ r arm)
    unfold move
    rw [bind_eq, ensures_bind]
    refine (ensures_follows_travel h x y).mono ?_ fun _ _ h => h
    rintro ⟨there, setting⟩ r' arm' ⟨rfl, h'⟩
    simp only [bind_eq, ensures_bind, ensures_warnOf]
    exact ensures_checked (fun _ _ => h') trivial
  | lift z =>
    refine (?_ : (st.lift arm z).Ensures .recorder _ _ r arm)
    unfold lift
    cases hheight : st.workspace.heightAt z arm.pose.spot with
    | error fault => trivial
    | ok height =>
      simp only [Plan.ofExcept, bind_eq, done_bind, ensures_bind, ensures_assume]
      refine ensures_act_recorder fun _ => ⟨?_, h.wrist_eq, h.pumpOn_eq⟩
      exact congrArg (fun pose : Pose => { pose with z := height }) h.pose_eq
  | grip =>
    refine (?_ : (st.grip arm).Ensures .recorder _ _ r arm)
    unfold grip
    simp only [bind_eq, ensures_bind, ensures_assume]
    -- the wrist, the dip, the pump, and the way back up
    refine ensures_act_recorder fun _ => ?_
    refine ensures_act_recorder fun _ => ?_
    refine ensures_act_recorder fun _ => ?_
    refine ensures_act_recorder fun _ => ⟨?_, rfl, rfl⟩
    exact congrArg (fun pose : Pose => { pose with z := arm.pose.z }) h.pose_eq
  | release =>
    refine (?_ : (release arm).Ensures .recorder _ _ r arm)
    unfold release
    simp only [bind_eq, ensures_bind]
    exact ensures_act_recorder fun _ => ⟨h.pose_eq, h.wrist_eq, rfl⟩
  | turn degrees =>
    refine (?_ : (st.turn arm degrees).Ensures .recorder _ _ r arm)
    unfold turn
    simp only [bind_eq, ensures_bind, ensures_assume, ensures_warnOf]
    refine ensures_act_recorder fun _ => ?_
    exact ensures_checked (fun _ _ => ⟨h.pose_eq, rfl, h.pumpOn_eq⟩) trivial
  | diagnose arguments =>
    refine (ensures_follows_diagnose h line arguments).mono ?_ fun _ _ h => h
    rintro effect r' arm' ⟨hpump, h'⟩
    exact hpump.symm ▸ h'

/-- Parking leaves them together, and the pump as it is. -/
theorem ensures_follows_park (st : Station) (h : r.Follows on arm) :
    st.park.Ensures .recorder (fun _ => Follows on) (fun _ _ => True) r arm := by
  unfold park
  cases hhome : st.homePose with
  | error fault => trivial
  | ok pose =>
    simp only [Plan.ofExcept, bind_eq, done_bind, ensures_bind]
    refine ensures_act_recorder fun _ => ?_
    refine ensures_act_recorder fun _ => ?_
    refine ensures_act_recorder fun _ => ?_
    exact ⟨rfl, rfl, h.pumpOn_eq⟩

end Station

/-! ## Runs -/

namespace Scene

/-- Belief, device and blocks agree: the device is where the arm is believed to be, and where a
challenge is played, the pump is on just while a block is held. -/
structure InTune (s : Scene Recorder) : Prop where
  pose : s.rig.device.pose = s.rig.arm.pose
  wrist : s.rig.device.wrist = s.rig.arm.wrist
  pump : ∀ w, s.world = some w → (s.rig.device.pumpOn = true ↔ w.isHolding = true)

variable {st : Station} {asks : Call → Recorder → Bool} {s : Scene Recorder}

theorem InTune.follows (h : s.InTune) : s.rig.device.Follows s.rig.device.pumpOn s.rig.arm :=
  ⟨h.pose, h.wrist, rfl⟩

theorem InTune.say (h : s.InTune) (level : Level) (text : String) : (s.say level text).InTune := by
  constructor <;> simp only [Scene.say, Rig.device_say, Rig.arm_say]
  · exact h.pose
  · exact h.wrist
  · exact h.pump

/-- An effect that succeeds after its plan leaves the records in agreement. -/
theorem inTune_affect {effect : Effect} {rig : Rig Recorder} {world : Option World} {on : Bool}
    (hrig : rig.device.Follows (effect.pumpAfter on) rig.arm)
    (hworld : ∀ w, world = some w → on = w.isHolding) :
    Leaves InTune (fun _ => True) (affect effect ⟨rig, world⟩) := by
  cases world with
  | none => exact ⟨hrig.pose_eq, hrig.wrist_eq, fun w h => nomatch h⟩
  | some w =>
    obtain rfl := hworld w rfl
    rcases happly : effect.apply w with ⟨result, after⟩
    simp only [affect, happly]
    cases result with
    | error fault => trivial
    | ok message =>
      have htune : InTune ⟨rig, some after⟩ := by
        refine ⟨hrig.pose_eq, hrig.wrist_eq, ?_⟩
        intro w' hw'
        obtain rfl := Option.some.inj hw'
        simp only [hrig.pumpOn_eq, Effect.isHolding_apply happly]
      cases message with
      | none => exact htune
      | some text => exact htune.say _ _

/-- A statement that succeeds leaves the records in agreement. -/
theorem inTune_perform (st : Station) (asks : Call → Recorder → Bool) (h : s.InTune)
    (statement : Statement) :
    Leaves InTune (fun _ => True) (perform st (.attended asks) statement s) := by
  obtain ⟨rig, world⟩ := s
  have hon : ∀ w, world = some w → rig.device.pumpOn = w.isHolding := fun w hw =>
    Bool.eq_iff_iff.mpr (h.pump w hw)
  have hmeets := Plan.ensures_exec (d := .attended asks)
    (Plan.ensures_attended (st.ensures_follows_plan h.follows statement))
  simp only [perform]
  rcases hexec : (st.plan rig.arm statement).exec (.attended asks) rig with ⟨outcome, after⟩
  rw [hexec] at hmeets
  cases outcome with
  | value effect => exact inTune_affect hmeets hon
  | fault fault => trivial
  | broken b => trivial

/-- So does parking that succeeds. -/
theorem inTune_conclude (h : s.InTune) (told : Report) {report : Report}
    (hreport : (conclude st (.attended asks) told s).1 = .ok report)
    (hstate : report.state ≠ .failed) : (conclude st (.attended asks) told s).2.InTune := by
  have hmeets := Plan.ensures_exec (d := .attended asks)
    (Plan.ensures_attended (st.ensures_follows_park h.follows))
  unfold conclude at hreport ⊢
  rcases hexec : st.park.exec (.attended asks) s.rig with ⟨outcome, rig⟩
  rw [hexec] at hmeets hreport
  cases outcome with
  | broken b => simp at hreport
  | fault fault =>
    obtain rfl := Except.ok.inj hreport
    exact absurd rfl hstate
  | value u =>
    have hparked : InTune { s with rig } := by
      refine ⟨hmeets.pose_eq, hmeets.wrist_eq, fun w hw => ?_⟩
      rw [hmeets.pumpOn_eq]
      exact h.pump w hw
    exact ⟨(hparked.say _ _).pose, (hparked.say _ _).wrist, (hparked.say _ _).pump⟩

/-- **Belief, device and blocks stay in agreement.**  If they agree when a run begins, they agree
again after every statement that succeeds, and when the run ends, unless a fault has ended it.
Somebody may ask for a stop at any call, and the connection may be lost at any call. -/
theorem inTune_run (st : Station) (asks : Call → Recorder → Bool) (h : s.InTune)
    (program : Program) :
    (∀ x ∈ stages st (.attended asks) program (s.begin program),
      (perform st (.attended asks) x.statement x.before).1 = .value () →
      (perform st (.attended asks) x.statement x.before).2.InTune) ∧
    ∀ report, (run st (.attended asks) program s).1 = .ok report →
      report.state = .completed ∨ report.state = .aborted →
      (run st (.attended asks) program s).2.InTune := by
  have hbegin : (s.begin program).InTune := by
    refine InTune.say ?_ _ _
    exact ⟨h.pose, h.wrist, h.pump⟩
  refine ⟨?_, ?_⟩
  · intro x hx hvalue
    have hbefore := before_of_mem_stages (I := InTune) (fun _ _ h => inTune_perform st asks h _)
      hbegin x hx
    have hleaves := inTune_perform st asks hbefore x.statement
    rcases hperform : perform st (.attended asks) x.statement x.before with ⟨outcome, after⟩
    rw [hperform] at hleaves hvalue
    obtain rfl : outcome = .value () := hvalue
    exact hleaves
  · refine run_stages (I := InTune) (E := fun _ => True)
      (F := fun out => ∀ report, out.1 = .ok report →
        report.state = .completed ∨ report.state = .aborted → out.2.InTune)
      (fun _ level text h => h.say level text) (fun _ _ _ _ => trivial) hbegin
      (fun x _ hx => inTune_perform st asks hx x.statement) ?_ ?_ ?_ ?_
    · intro n t ht report hreport hstate
      refine inTune_conclude ht _ hreport ?_
      rcases hstate with hstate | hstate <;> rw [hstate] <;> decide
    · intro n t ht _ _ _
      exact ⟨ht.pose, ht.wrist, ht.pump⟩
    · intro fault n t _ report hreport hstate
      obtain rfl := Except.ok.inj hreport
      exact absurd hstate (by simp)
    · intro b t _ report hreport
      exact absurd hreport (by simp)

/-- A scene at home in which a board is held with the pump on. -/
def boardGripped : Scene Recorder where
  rig := Station.standard.rig
    { pose := Station.standard.homeArm.pose, wrist := Station.standard.homeArm.wrist
      pumpOn := true }
  world := some
    { name := "carrying", floorLevel := 1, lying := ∅, occupied := ∅, goal := []
      held := some (.place 0 ⟨"board", 2, 1⟩ ⟨3, 8, 2⟩ 0) }

theorem inTune_boardGripped : boardGripped.InTune := by
  refine ⟨rfl, rfl, fun w hw => ?_⟩
  obtain rfl := Option.some.inj hw
  exact ⟨fun _ => rfl, fun _ => rfl⟩

/-- Somebody asks for a stop while the board is lowered, so that it is not released any more. -/
theorem inTune_run_boardGripped : ∃ report,
    (run .standard (.attended fun c _ => c matches .moveZ _)
      [⟨1, .turn 90⟩, ⟨2, .lift 1⟩, ⟨3, .release⟩] boardGripped).1 = .ok report ∧
    report.state = .aborted ∧ report.applied = 2 ∧
    (run .standard (.attended fun c _ => c matches .moveZ _)
      [⟨1, .turn 90⟩, ⟨2, .lift 1⟩, ⟨3, .release⟩] boardGripped).2.InTune := by
  have happlied : (run .standard (.attended fun c _ => c matches .moveZ _)
      [⟨1, .turn 90⟩, ⟨2, .lift 1⟩, ⟨3, .release⟩] boardGripped).1.toOption.map
        (fun report => (report.state, report.applied)) = some (.aborted, 2) := by
    decide +kernel
  have hrun := (inTune_run .standard (fun c _ => c matches .moveZ _) inTune_boardGripped
    [⟨1, .turn 90⟩, ⟨2, .lift 1⟩, ⟨3, .release⟩]).2
  rcases hreport : (run .standard (.attended fun c _ => c matches .moveZ _)
      [⟨1, .turn 90⟩, ⟨2, .lift 1⟩, ⟨3, .release⟩] boardGripped).1 with b | report
  · rw [hreport] at happlied
    exact absurd happlied (by simp [Except.toOption])
  · rw [hreport] at happlied
    obtain ⟨hstate, happlied⟩ := Prod.mk.inj (Option.some.inj happlied)
    exact ⟨report, rfl, hstate, happlied, hrun report hreport (.inr hstate)⟩

end Scene

end BlockArm
