/-
# What the recording device has recorded

The recording device does what it is told until its connection is lost, and never crashes.  It
therefore is where the arm is believed to be whenever a plan ends well, and its pump is as the last
statement to the gripper has left it.

* `Device.attended`: the recording device, and somebody who may ask for a stop at any call;
* `Station.Parked`: belief and device agree that the arm is at home, and the pump is on or off;
* `Station.ensures_park_recorder`, `Station.ensures_home_recorder`: parking keeps the pump as it
  is, and going home switches it off;
* `Scene.parked_runSource`: completed runs park the arm, with the pump as the script has left it.
-/
import BlockArm.Proofs.Run.Breakdowns
import BlockArm.Proofs.Run.Completion
import BlockArm.Proofs.Run.Points
import BlockArm.Proofs.Run.Steering

namespace BlockArm

/-! ## What plans ensure on the recording device -/

namespace Plan

variable {r : Recorder} {arm : ArmState}

/-- A call that is done is followed and recorded. -/
theorem ensures_act_recorder {Q : Unit → Recorder → ArmState → Prop} {c : Call}
    (hQ : ∀ calls, Q () { r.track c with calls } arm) :
    (act c).Ensures .recorder Q (fun _ _ => True) r arm := by
  by_cases hlost : r.isLost = true
  · simp only [act, Ensures, Device.recorder, Recorder.perform, if_pos hlost]
  · simp only [act, Ensures, Device.recorder, Recorder.perform, if_neg hlost]
    exact hQ _

end Plan

/-! ## Somebody at the device -/

/-- The recording device while somebody watches who may ask for a stop: whether they do at a call
may depend on all that was recorded before it. -/
def Device.attended (asks : Call → Recorder → Bool) : Device Recorder where
  perform c r := ({ (r.perform c).1 with stop := asks c r }, (r.perform c).2)
  pose r := .ok r.pose

/-- This does not crash either. -/
theorem Device.sturdy_attended (asks : Call → Recorder → Bool) : (attended asks).Sturdy :=
  fun c r => sturdy_recorder c r

/-- What plans ensure does not depend on who asks for a stop. -/
theorem Plan.ensures_attended {α : Type} {asks : Call → Recorder → Bool}
    {Q : α → Recorder → ArmState → Prop} {E : Recorder → ArmState → Prop} {p : Plan α} :
    ∀ {r : Recorder} {arm : ArmState}, p.Ensures .recorder Q E r arm →
      p.Ensures (.attended asks) Q E r arm := by
  induction p with
  | done a => exact fun h => h
  | fail fault => exact fun h => h
  | broken b => exact fun h => h
  | call c next ih =>
    intro r arm h
    have hanswer : ((Device.attended asks).perform c r).1.answer =
        (Device.recorder.perform c r).1.answer := rfl
    have hstate : ((Device.attended asks).perform c r).2 = (Device.recorder.perform c r).2 := rfl
    simp only [Ensures, hanswer, hstate] at h ⊢
    split
    · next hdone =>
      rw [hdone] at h
      exact ih () h
    all_goals next hother => rw [hother] at h; exact h
  | locate next ih => exact fun h => ih _ h
  | believe arm' next ih => exact fun h => ih h
  | note level text next ih => exact fun h => ih h
  | warn warning next ih => exact fun h => ih h

/-! ## The pump -/

/-- Whether a call switches the pump. -/
def Call.isPump : Call → Bool
  | .pump _ => true
  | .moveXY _ _ | .moveZ _ | .setWrist _ | .reset => false

/-- Driving the arm and turning its wrist is not switching the pump. -/
theorem Call.spares_isPump : Spares isPump := ⟨fun _ _ => rfl, fun _ => rfl, fun _ => rfl⟩

/-- A call that does not switch the pump leaves it as it is. -/
theorem Recorder.pumpOn_track {c : Call} (h : c.isPump = false) (r : Recorder) :
    (r.track c).pumpOn = r.pumpOn := by
  cases c <;> first | rfl | exact absurd h.symm Bool.false_ne_true

/-- A plan that does not switch the pump leaves it as it is. -/
theorem Plan.Avoids.ensures_pumpOn {α : Type} {p : Plan α} (h : p.Avoids Call.isPump) {on : Bool} :
    ∀ {r : Recorder} (arm : ArmState), r.pumpOn = on →
      p.Ensures .recorder (fun _ r _ => r.pumpOn = on) (fun _ _ => True) r arm := by
  induction p with
  | done a => exact fun arm hr => hr
  | fail fault => exact fun arm hr => trivial
  | broken b => exact fun arm hr => trivial
  | call c next ih =>
    intro r arm hr
    refine (show ((act c).bind next).Ensures _ _ _ _ _ from ?_)
    rw [ensures_bind]
    refine ensures_act_recorder fun calls => ih () h.2 arm ?_
    exact (Recorder.pumpOn_track h.1 r).trans hr
  | locate next ih => exact fun arm hr => ih _ (h _) arm hr
  | believe arm' next ih => exact fun arm hr => ih h arm' hr
  | note level text next ih => exact fun arm hr => ih h arm hr
  | warn warning next ih => exact fun arm hr => ih h arm hr

/-- Whether the pump is on after a command. -/
def Command.pumpAfter (on : Bool) : Command → Bool
  | .grip => true
  | .release => false
  | .move _ _ | .lift _ | .turn _ | .diagnose _ => on

namespace Station

variable {st : Station} {on : Bool} {r : Recorder} {arm : ArmState}

/-- Only gripping and releasing switch the pump. -/
theorem ensures_pumpAfter (statement : Statement) (hr : r.pumpOn = on) :
    (st.plan arm statement).Ensures .recorder
      (fun _ r _ => r.pumpOn = statement.command.pumpAfter on) (fun _ _ => True) r arm := by
  have hspare : statement.command ≠ .grip → statement.command ≠ .release →
      (st.plan arm statement).Ensures .recorder (fun _ r _ => r.pumpOn = on) (fun _ _ => True) r
        arm := by
    intro hgrip hrelease
    exact (st.avoids_plan arm Call.spares_isPump statement (fun h => absurd h hgrip)
      (fun h => absurd h hrelease)).ensures_pumpOn arm hr
  obtain ⟨line, command⟩ := statement
  cases command with
  | move x y => exact hspare (by simp) (by simp)
  | lift z => exact hspare (by simp) (by simp)
  | turn degrees => exact hspare (by simp) (by simp)
  | diagnose arguments => exact hspare (by simp) (by simp)
  | grip =>
    refine (?_ : (st.grip arm).Ensures _ _ _ _ _)
    simp only [grip, Plan.bind_eq, Plan.ensures_bind, Plan.ensures_assume]
    refine Plan.ensures_act_recorder fun _ => ?_
    refine Plan.ensures_act_recorder fun _ => ?_
    refine Plan.ensures_act_recorder fun _ => ?_
    exact Plan.ensures_act_recorder fun _ => rfl
  | release =>
    refine (?_ : (release arm).Ensures _ _ _ _ _)
    simp only [release, Plan.bind_eq, Plan.ensures_bind]
    exact Plan.ensures_act_recorder fun _ => rfl

/-! ## Parking -/

/-- Belief and device agree that the arm is at home, with the pump on or off. -/
structure Parked (st : Station) (on : Bool) (device : Recorder) (arm : ArmState) : Prop where
  arm_eq : arm = st.homeArm
  pose_eq : device.pose = st.homeArm.pose
  wrist_eq : device.wrist = st.homeArm.wrist
  pumpOn_eq : device.pumpOn = on

/-- Parking leaves the pump as it is. -/
theorem ensures_park_recorder (hhome : st.homePose = .ok st.homeArm.pose) (hr : r.pumpOn = on) :
    st.park.Ensures .recorder (fun _ => st.Parked on) (fun _ _ => True) r arm := by
  unfold park
  rw [hhome]
  simp only [Plan.ofExcept, Plan.bind_eq, Plan.done_bind, Plan.ensures_bind]
  refine Plan.ensures_act_recorder fun _ => ?_
  refine Plan.ensures_act_recorder fun _ => ?_
  refine Plan.ensures_act_recorder fun _ => ?_
  exact ⟨rfl, rfl, rfl, hr⟩

/-- Going home switches the pump off. -/
theorem ensures_home_recorder (hhome : st.homePose = .ok st.homeArm.pose) (before : ArmState) :
    (st.home before).Ensures .recorder (fun _ => st.Parked false) (fun _ _ => True) r arm := by
  unfold home
  simp only [Plan.bind_eq, Plan.ensures_bind]
  refine Plan.ensures_act_recorder fun _ => ?_
  refine Plan.ensures_act_recorder fun _ => ?_
  exact ensures_park_recorder hhome rfl

/-- The arm either comes home, with the pump switched off, or fails to. -/
theorem parked_home (hhome : st.homePose = .ok st.homeArm.pose) (asks : Call → Recorder → Bool)
    (before : ArmState) (rig : Rig Recorder) :
    ((st.home before).exec (.attended asks) rig).1 = .value () ∧
      st.Parked false ((st.home before).exec (.attended asks) rig).2.device
        ((st.home before).exec (.attended asks) rig).2.arm ∨
    ∃ fault, ((st.home before).exec (.attended asks) rig).1 = .fault fault := by
  have hmeets := Plan.ensures_exec (d := .attended asks) (r := rig)
    (Plan.ensures_attended (ensures_home_recorder hhome before))
  have hbroken := (st.breaksOnly_home before).exec_ne_broken (Device.sturdy_attended asks) rig
  rcases hexec : (st.home before).exec (.attended asks) rig with ⟨outcome, after⟩
  rw [hexec] at hmeets hbroken
  cases outcome with
  | value u => exact .inl ⟨rfl, hmeets⟩
  | fault fault => exact .inr ⟨fault, rfl⟩
  | broken b => exact absurd rfl (hbroken b)

end Station

/-! ## Completed runs -/

/-- Whether the pump is on after a program. -/
def Command.pumpAfterAll (on : Bool) (program : Program) : Bool :=
  program.foldl (fun on statement => statement.command.pumpAfter on) on

/-- A completed run parks the arm, with the pump as the script has left it. -/
theorem Scene.parked_runSource {st : Station} {asks : Call → Recorder → Bool}
    (hhome : st.homePose = .ok st.homeArm.pose) {source : List Char} {s : Scene Recorder}
    {report : Report} (h : (runSource st (.attended asks) source s).1 = .ok report)
    (hcompleted : report.leftAway = false) :
    st.Parked (Command.pumpAfterAll s.rig.device.pumpOn (Script.program source))
      (runSource st (.attended asks) source s).2.rig.device
      (runSource st (.attended asks) source s).2.rig.arm := by
  refine runSource_foldl (I := fun on r _ => r.pumpOn = on) (J := st.Parked) ?_ ?_ rfl h hcompleted
  · intro on statement r arm hr
    exact Plan.ensures_attended (Station.ensures_pumpAfter statement hr)
  · intro on r arm hr
    exact Plan.ensures_attended (Station.ensures_park_recorder hhome hr)

end BlockArm
