/-
# Drives home that fail

A drive home takes the arm's word for where it is as soon as the arm was reset, and the home cell only
when it has come there.  If it fails in between, the cell and the place that are believed need not
agree: the cell is the one from before, the place is the one that was told.

* `Station.ensures_park_same`: parking that fails leaves what is believed as it is;
* `Scene.arm_of_home_fault`: what is believed after a drive home that failed;
* `Scene.pose_of_home_fault_iff`: the place and the cell agree just if the arm was not asked, or could
  not tell, or told the place of the cell.
-/
import BlockArm.Proofs.Run.Belief

namespace BlockArm

variable {σ : Type} {st : Station} {d : Device σ}

/-- A call ensures what holds after the answer that the device gives. -/
theorem Plan.ensures_act_of_answer {Q : Unit → σ → ArmState → Prop} {E : σ → ArmState → Prop}
    {c : Call} {s : σ} {arm : ArmState}
    (hdone : (d.perform c s).1.answer = .done → Q () (d.perform c s).2 arm)
    (hother : (d.perform c s).1.answer ≠ .done → E (d.perform c s).2 arm) :
    (act c).Ensures d Q E s arm := by
  simp only [act, Ensures]
  cases hanswer : (d.perform c s).1.answer with
  | done => exact hdone hanswer
  | failed message => exact hother (by simp [hanswer])
  | crashed => exact hother (by simp [hanswer])

namespace Station

/-- Parking takes nothing down before its last step. -/
theorem ensures_park_same {device : σ} {arm : ArmState} :
    st.park.Ensures d (fun _ _ _ => True) (fun _ after => after = arm) device arm := by
  unfold park
  cases st.homePose with
  | error fault => rfl
  | ok pose =>
    simp only [Plan.ofExcept, Plan.bind_eq, Plan.done_bind, Plan.ensures_bind]
    refine Plan.ensures_act (fun _ => ?_) fun _ => rfl
    refine Plan.ensures_act (fun _ => ?_) fun _ => rfl
    exact Plan.ensures_act (fun _ => trivial) fun _ => rfl

end Station

namespace Scene

variable {r : Rig σ} {fault : Fault}

/-- The place that the arm told, if it was reset. -/
def toldPose? (d : Device σ) (r : Rig σ) : Option Pose :=
  match (d.perform .reset r.device).1.answer with
  | .done => (d.pose (d.perform .reset r.device).2).toOption
  | .failed _ | .crashed => none

/-- A drive home that failed leaves what was believed before, but for the place that the arm told. -/
theorem arm_of_home_fault (h : (home st d r).1 = .fault fault) :
    (home st d r).2.arm = { r.arm with pose := (toldPose? d r).getD r.arm.pose } := by
  have hensures : (st.home r.arm).Ensures d (fun _ _ _ => True)
      (fun _ arm => arm = { r.arm with pose := (toldPose? d r).getD r.arm.pose })
      r.device r.arm := by
    unfold Station.home
    simp only [Plan.bind_eq, Plan.ensures_bind]
    refine Plan.ensures_act_of_answer (fun hdone => ?_) fun hother => ?_
    · -- once the place was told, nothing else is taken down before the arm has parked
      unfold Plan.Ensures
      split
      · next pose hpose =>
        have htold : toldPose? d r = some pose := by simp only [toldPose?, hdone, hpose, Except.toOption]
        simp only [htold, Plan.ensures_done, Plan.ensures_assume, Plan.ensures_say]
        exact Plan.ensures_act (fun _ => Station.ensures_park_same) fun _ => rfl
      · next message hpose =>
        simp only [toldPose?, hdone, hpose, Except.toOption, Option.getD_none]
    · have hnone : toldPose? d r = none := by
        unfold toldPose?
        split
        · next hdone => exact absurd hdone hother
        · rfl
        · rfl
      simp only [hnone, Option.getD_none]
  have hmeets := Plan.ensures_exec hensures
  unfold home at h ⊢
  rw [h] at hmeets
  exact hmeets

/-- **A drive home that fails may part the place from the cell.**  Of an arm that was believed to be
above its cell, the place and the cell still agree just if the arm was not reset, or could not tell
where it was, or told the place of the cell. -/
theorem pose_of_home_fault_iff (hplaced : r.arm.pose = st.workspace.image r.arm.cell)
    (hfault : (home st d r).1 = .fault fault) :
    (home st d r).2.arm.pose = st.workspace.image (home st d r).2.arm.cell ↔
      ((d.perform .reset r.device).1.answer = .done → ∀ pose,
        d.pose (d.perform .reset r.device).2 = .ok pose → pose = st.workspace.image r.arm.cell) := by
  rw [arm_of_home_fault hfault, toldPose?]
  cases (d.perform .reset r.device).1.answer with
  | failed message => simp [hplaced]
  | crashed => simp [hplaced]
  | done => cases d.pose (d.perform .reset r.device).2 <;> simp [hplaced, Except.toOption]

/-- A recording device that says it is at home wherever it is. -/
def sureOfHome : Device Recorder :=
  { Device.recorder with pose := fun _ => .ok Station.standard.homeArm.pose }

/-- The arm is lost right after its reset, but it still tells the place of its cell. -/
theorem pose_of_home_fault_sureOfHome :
    let r := Station.standard.rig ({ failAfter := some 1 } : Recorder)
    r.arm.pose = Station.standard.workspace.image r.arm.cell ∧
      (home .standard sureOfHome r).1 = .fault (.device Recorder.lost) ∧
      (home .standard sureOfHome r).2.arm.pose =
        Station.standard.workspace.image (home .standard sureOfHome r).2.arm.cell := by
  intro r
  have hfault : (home .standard sureOfHome r).1 = .fault (.device Recorder.lost) := by rfl
  exact ⟨rfl, hfault, (pose_of_home_fault_iff rfl hfault).mpr fun _ _ hpose =>
    (Except.ok.inj hpose).symm⟩

/-- A recording arm tells instead that it is at the base, and this is believed beside the old cell. -/
theorem exists_home_fault_pose_ne : ∃ (r : Rig Recorder) (fault : Fault),
    r.arm.pose = Station.standard.workspace.image r.arm.cell ∧
      (home .standard .recorder r).1 = .fault fault ∧
      (home .standard .recorder r).2.arm.pose ≠
        Station.standard.workspace.image (home .standard .recorder r).2.arm.cell := by
  refine ⟨Station.standard.rig { failAfter := some 1 }, .device Recorder.lost, rfl, rfl, fun h => ?_⟩
  have hx : (0 : Float) = (Station.standard.workspace.image Station.standard.settings.home).x :=
    congrArg Pose.x h
  exact absurd hx (by decide +kernel)

end Scene

end BlockArm
