/-
# What is believed about an arm

An arm that was built at home, and used since by runs and by home drives, is always believed to be
above the centre of a cell, at its height, at a point that it may be sent to.  The devices may fail
or crash at any call, and no two runs need the same device.

* `Station.Reached`: the beliefs that building, running and driving home lead to;
* `Station.Upholds.reached`: what the plans keep up holds of all of them;
* `Station.pose_of_reached`: the place and the cell agree, and the place is permitted.
-/
import BlockArm.Proofs.Run.Upkeep
import BlockArm.Proofs.Run.Points
import BlockArm.Proofs.Run.Completion

namespace BlockArm

/-- Whether an outcome is a value can be tested. -/
theorem Outcome.eq_value {o : Outcome Unit} (h : (o matches .value ()) = true) :
    o = .value () := by
  cases o with
  | value u => rfl
  | fault fault => exact absurd h Bool.false_ne_true
  | broken b => exact absurd h Bool.false_ne_true

/-- So can whether it is an overflow. -/
theorem Outcome.eq_overflow {α : Type} {o : Outcome α} (h : (o matches .broken .overflow) = true) :
    o = .broken .overflow := by
  cases o with
  | value a => exact absurd h Bool.false_ne_true
  | fault fault => exact absurd h Bool.false_ne_true
  | broken b =>
    cases b with
    | overflow => rfl
    | crashed => exact absurd h Bool.false_ne_true
    | endless => exact absurd h Bool.false_ne_true

/-! ## Histories of beliefs -/

namespace Station

/-- What is believed about an arm that was built and used since.  It has gripped only where `grips`
holds of the belief, and it has been driven home only with outcomes of which `homings` holds. -/
inductive Reached (st : Station) (grips : ArmState → Prop) (homings : Outcome Unit → Prop) :
    ArmState → Prop where
  | built : Reached st grips homings st.homeArm
  | run {σ : Type} {d : Device σ} {program : Program} {s : Scene σ} :
      Reached st grips homings s.rig.arm →
      (∀ x ∈ Scene.stages st d program (s.begin program), x.statement.command = .grip →
        grips x.before.rig.arm) →
      Reached st grips homings (Scene.run st d program s).2.rig.arm
  | runSource {σ : Type} {d : Device σ} {source : List Char} {s : Scene σ} :
      Reached st grips homings s.rig.arm →
      (∀ x ∈ Scene.stages st d (Script.program source) (s.begin (Script.program source)),
        x.statement.command = .grip → grips x.before.rig.arm) →
      Reached st grips homings (Scene.runSource st d source s).2.rig.arm
  | home {σ : Type} {d : Device σ} {r : Rig σ} :
      Reached st grips homings r.arm → homings (Scene.home st d r).1 →
      Reached st grips homings (Scene.home st d r).2.arm

end Station

namespace Scene

variable {σ : Type}

/-- A script either is not run, and then nothing is done, or its program is run. -/
theorem runSource_cases (st : Station) (d : Device σ) (source : List Char) (s : Scene σ) :
    (∃ fault, runSource st d source s = reject fault s) ∨
      runSource st d source s = run st d (Script.program source) s := by
  unfold runSource
  split
  · next fault hparse => exact .inl ⟨fault, rfl⟩
  · exact .inl ⟨_, rfl⟩
  · next program _ hparse =>
    rw [Script.program, hparse]
    exact .inr rfl

theorem arm_reject (fault : Fault) (s : Scene σ) : (reject fault s).2.rig.arm = s.rig.arm := by
  simp only [reject, say, Rig.arm_say]

end Scene

namespace Station

variable {st : Station} {good : Float → Bool} {B : ArmState → Prop} {grips : ArmState → Prop}
  {homings : Outcome Unit → Prop} {arm : ArmState}

/-- What the plans keep up holds of all beliefs that are reached. -/
theorem Upholds.reached (h : st.Upholds good B)
    (hgrips : ∀ arm, grips arm → good (st.workspace.gripAngle arm.pose.spot) = true)
    (hbuilt : B st.homeArm)
    (hhome : ∀ {σ : Type} {d : Device σ} {r : Rig σ}, B r.arm → homings (Scene.home st d r).1 →
      B (Scene.home st d r).2.arm)
    (hreached : st.Reached grips homings arm) : B arm := by
  have hrun : ∀ {σ : Type} {d : Device σ} {program : Program} {s : Scene σ}, B s.rig.arm →
      (∀ x ∈ Scene.stages st d program (s.begin program), x.statement.command = .grip →
        grips x.before.rig.arm) → B (Scene.run st d program s).2.rig.arm := by
    intro σ d program s hB hstages
    exact (h.run (T := fun _ => True) (fun _ _ _ _ => trivial)
      (fun x hx hgrip => hgrips _ (hstages x hx hgrip)) trivial hB).2
  induction hreached with
  | built => exact hbuilt
  | run _ hstages ih => exact hrun ih hstages
  | @runSource σ d source s _ hstages ih =>
    rcases Scene.runSource_cases st d source s with ⟨fault, hreject⟩ | heq
    · rw [hreject, Scene.arm_reject]
      exact ih
    · rw [heq]
      exact hrun ih hstages
  | home _ hout ih => exact hhome ih hout

/-! ## Where the arm is -/

/-- The arm is believed to be above the centre of its cell, at a point that it may be sent to. -/
structure Placed (st : Station) (arm : ArmState) : Prop where
  pose_eq : arm.pose = st.workspace.image arm.cell
  permitted : st.Permits arm.pose

section Home

variable {σ : Type} {d : Device σ} (hhome : st.homePose = .ok st.homeArm.pose)

include hhome

/-- Parking that succeeds leaves the arm at home. -/
theorem ensures_park_homeArm {device : σ} :
    st.park.Ensures d (fun _ _ arm => arm = st.homeArm) (fun _ _ => True) device arm := by
  unfold park
  rw [hhome]
  simp only [Plan.ofExcept, Plan.bind_eq, Plan.done_bind, Plan.ensures_bind]
  refine Plan.ensures_act (fun _ => ?_) fun _ => trivial
  refine Plan.ensures_act (fun _ => ?_) fun _ => trivial
  exact Plan.ensures_act (fun _ => rfl) fun _ => trivial

/-- So does a drive home. -/
theorem arm_home {r : Rig σ} (h : (Scene.home st d r).1 = .value ()) :
    (Scene.home st d r).2.arm = st.homeArm := by
  have hensures : (st.home r.arm).Ensures d (fun _ _ arm => arm = st.homeArm) (fun _ _ => True)
      r.device r.arm := by
    unfold home
    simp only [Plan.bind_eq, Plan.ensures_bind]
    refine Plan.ensures_act (fun _ => ?_) fun _ => trivial
    unfold Plan.Ensures
    split
    · simp only [Plan.ensures_done, Plan.ensures_assume, Plan.ensures_say]
      exact Plan.ensures_act (fun _ => ensures_park_homeArm hhome) fun _ => trivial
    · trivial
  have hmeets := Plan.ensures_exec hensures
  unfold Scene.home at h ⊢
  rw [h] at hmeets
  exact hmeets

end Home

/-- Only places that the geometry was asked about are taken down. -/
theorem upholds_placed (hhome : st.homePose = .ok st.homeArm.pose)
    (hpermits : st.Permits st.homeArm.pose) : st.Upholds (fun _ => true) st.Placed where
  settled _ _ := rfl
  swept _ := rfl
  centered := rfl
  held _ := rfl
  turned h _ := ⟨h.pose_eq, h.permitted⟩
  moved h hspot := by
    obtain ⟨rfl, hreach⟩ := spotAt_eq_ok hspot
    have hz := congrArg Pose.z h.pose_eq
    exact ⟨by rw [hz]; rfl, hreach, h.permitted.2⟩
  lifted h hheight := by
    obtain ⟨rfl, hfloor, hreach⟩ := heightAt_eq_ok hheight
    exact ⟨by rw [h.pose_eq]; rfl, hreach, hfloor⟩
  parked hpose := by
    obtain rfl := Except.ok.inj (hpose.symm.trans hhome)
    exact ⟨rfl, hpermits⟩

/-- However it was used since it was built, if it was driven home then with success, the arm is
believed to be above the centre of its cell, at its height, within reach and not below the floor. -/
theorem pose_of_reached {workspace : Workspace} {settings : Settings}
    (hbuild : build workspace settings = .ok st)
    (hreached : st.Reached (fun _ => True) (fun outcome => outcome = .value ()) arm) :
    arm.pose =
      ⟨(Number.ofInt32 arm.cell.x + 0.5) * st.workspace.edge + st.workspace.xOffset,
        (Number.ofInt32 arm.cell.y + 0.5) * st.workspace.edge + st.workspace.yOffset,
        st.workspace.zOffset + Number.ofInt32 arm.cell.z * st.workspace.edge⟩ ∧
      st.workspace.reaches arm.pose = true ∧ ¬ arm.pose.z < st.workspace.floorHeight := by
  obtain ⟨hhome, hpermits⟩ := homePose_of_build hbuild
  have hplaced : st.Placed arm := by
    refine (upholds_placed hhome hpermits).reached (fun _ _ => rfl) ⟨rfl, hpermits⟩ ?_ hreached
    intro σ d r _ hvalue
    rw [arm_home hhome hvalue]
    exact ⟨rfl, hpermits⟩
  exact ⟨hplaced.pose_eq, hplaced.permitted⟩

/-- A lift and a grip on a device that is lost after three calls. -/
def interrupted : Rig Recorder :=
  (Scene.run standard .recorder (Script.program "hoehe(1);\npumpe_an();".toList)
    { rig := standard.rig { failAfter := some 3 } }).2.rig

/-- The same arm with a device that works. -/
def resumed : Rig Recorder := { interrupted with device := {} }

theorem home_resumed : (Scene.home standard .recorder resumed).1 = .value () := by
  have hdone : ((Scene.home standard .recorder resumed).1 matches .value ()) = true := by
    decide +kernel
  exact Outcome.eq_value hdone

/-- The arm that was broken off while it gripped, and then driven home on another device. -/
theorem pose_of_reached_resumed :
    let arm := (Scene.home standard .recorder resumed).2.arm
    standard.Reached (fun _ => True) (fun outcome => outcome = .value ()) arm ∧
      arm.pose =
        ⟨(Number.ofInt32 arm.cell.x + 0.5) * standard.workspace.edge + standard.workspace.xOffset,
          (Number.ofInt32 arm.cell.y + 0.5) * standard.workspace.edge + standard.workspace.yOffset,
          standard.workspace.zOffset + Number.ofInt32 arm.cell.z * standard.workspace.edge⟩ ∧
      standard.workspace.reaches arm.pose = true ∧
      ¬ arm.pose.z < standard.workspace.floorHeight := by
  have hrun : standard.Reached (fun _ => True) (fun outcome => outcome = .value ())
      resumed.arm := by
    simp only [resumed, interrupted]
    apply Reached.run
    · show standard.Reached _ _ standard.homeArm
      exact .built
    · exact fun _ _ _ => trivial
  have hreached := Reached.home (d := .recorder) (r := resumed) hrun home_resumed
  exact ⟨hreached, pose_of_reached build_standard hreached⟩

end Station

end BlockArm
