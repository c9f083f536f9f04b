/-
# Points that the arm is driven to

The geometry is asked before the arm moves above another column and before it changes its height.
Two drives are made without asking: the dip onto a block while the pump is switched on, and the way
back to the home column, which parking takes at whatever height the script has left.

* `Station.Permits`: the arm may be sent to a point;
* `Station.Attains`: the points at which statements leave the arm;
* `Station.Visits`: the points that statements and parking drive the arm to;
* `Station.ensures_plan`, `Station.ensures_park`: no other points are driven to.
-/
import BlockArm.Run.Motion
import BlockArm.Proofs.Arm.PlanLogic

namespace BlockArm

variable {σ α : Type}

/-- A computation that has a result can be tested for it. -/
theorem exists_eq_ok {ε α : Type} {e : Except ε α} (h : e.isOk = true) : ∃ a, e = .ok a := by
  cases e with
  | error _ => exact absurd h Bool.false_ne_true
  | ok a => exact ⟨a, rfl⟩

/-! ## Points -/

namespace Station

/-- The arm may be sent to a point: it reaches the point, which is not too low for the gripper. -/
def Permits (st : Station) (p : Pose) : Prop :=
  st.workspace.reaches p = true ∧ ¬ p.z < st.workspace.floorHeight

/-- The points at which the statements of a program can leave the arm. -/
inductive Attains (st : Station) : Pose → Prop where
  | home : Attains st st.homeArm.pose
  | move {q : Pose} {x y : Int32} {spot : Spot} :
      Attains st q → st.workspace.spotAt x y q.z = .ok spot → Attains st (.above spot q.z)
  | lift {q : Pose} {z : Int32} {height : Float} :
      Attains st q → st.workspace.heightAt z q.spot = .ok height → Attains st { q with z := height }

/-- Where the arm dips to from a point when the pump is switched on. -/
def dip (st : Station) (q : Pose) : Pose := { q with z := q.z + st.settings.gripCorrection }

/-- Where the arm crosses to from a point when it parks: above the home cell, no higher or lower. -/
def crossing (st : Station) (q : Pose) : Pose := .above st.homeArm.pose.spot q.z

/-- The points that statements and parking drive the arm to. -/
inductive Visits (st : Station) : Pose → Prop where
  | attained {q : Pose} : st.Attains q → Visits st q
  | dip {q : Pose} : st.Attains q → Visits st (st.dip q)
  | crossing {q : Pose} : st.Attains q → Visits st (st.crossing q)

variable {st : Station}

/-- A column that is reached at a height is above its centre. -/
theorem spotAt_eq_ok {w : Workspace} {x y : Int32} {z : Float} {spot : Spot}
    (h : w.spotAt x y z = .ok spot) : spot = w.center x y ∧ w.reaches (.above spot z) = true := by
  simp only [Workspace.spotAt] at h
  split at h
  · next hreach =>
    obtain rfl := Except.ok.inj h
    exact ⟨rfl, hreach⟩
  · simp at h

/-- A height that is reached above a place is no lower than the floor. -/
theorem heightAt_eq_ok {w : Workspace} {z : Int32} {spot : Spot} {height : Float}
    (h : w.heightAt z spot = .ok height) :
    height = w.height z ∧ ¬ height < w.floorHeight ∧ w.reaches (.above spot height) = true := by
  simp only [Workspace.heightAt] at h
  split at h
  · simp at h
  · next hheight =>
    obtain rfl := Except.ok.inj h
    obtain ⟨hfloor, hreach⟩ := not_or.mp hheight
    exact ⟨rfl, hfloor, by simpa using hreach⟩

/-- A station is built only in a workspace that makes sense. -/
theorem check_of_build {workspace : Workspace} {settings : Settings}
    (h : build workspace settings = .ok st) : st.workspace.check = .ok () := by
  simp only [build] at h
  split at h
  · simp at h
  · next hcheck =>
    split at h
    · simp at h
    · obtain rfl := Except.ok.inj h
      exact hcheck

/-- A station is built only where the home pose is permitted. -/
theorem homePose_of_build {workspace : Workspace} {settings : Settings}
    (h : build workspace settings = .ok st) :
    st.homePose = .ok st.homeArm.pose ∧ st.Permits st.homeArm.pose := by
  have hhome : ∃ pose, st.homePose = .ok pose := by
    simp only [build] at h
    split at h
    · simp at h
    · split at h
      · simp at h
      · next pose hpose =>
        obtain rfl := Except.ok.inj h
        exact ⟨pose, hpose⟩
  obtain ⟨pose, hpose⟩ := hhome
  have hpose' := hpose
  unfold homePose at hpose
  simp only at hpose
  split at hpose
  · simp at hpose
  · next spot hspot =>
    split at hpose
    · simp at hpose
    · next z hz =>
      obtain rfl := Except.ok.inj hpose
      obtain ⟨rfl, -⟩ := spotAt_eq_ok hspot
      obtain ⟨rfl, hfloor, hreach⟩ := heightAt_eq_ok hz
      exact ⟨hpose', hreach, hfloor⟩

/-- A workspace that makes sense and a home pose within reach are all that a station takes. -/
theorem build_eq_ok {workspace : Workspace} {settings : Settings}
    (hcheck : workspace.check.isOk = true)
    (hhome : (homePose { workspace, settings }).isOk = true) :
    build workspace settings = .ok { workspace, settings } := by
  obtain ⟨u, hu⟩ := exists_eq_ok hcheck
  obtain ⟨pose, hpose⟩ := exists_eq_ok hhome
  simp only [build, hu, hpose]

theorem build_standard : build {} {} = .ok standard :=
  build_eq_ok (by decide +kernel) (by decide +kernel)

/-- Statements leave the arm at permitted points only. -/
theorem Attains.permits {q : Pose} (h : st.Attains q) (hhome : st.Permits st.homeArm.pose) :
    st.Permits q := by
  induction h with
  | home => exact hhome
  | move _ hspot ih => exact ⟨(spotAt_eq_ok hspot).2, ih.2⟩
  | lift _ hheight _ =>
    obtain ⟨-, hfloor, hreach⟩ := heightAt_eq_ok hheight
    exact ⟨hreach, hfloor⟩

/-! ## What the plans drive to -/

/-- The arm has only been driven to points of the station, since it was at home. -/
def Cleared (st : Station) (w : Logged σ) : Prop :=
  ∀ p ∈ w.trace.driven st.homeArm.pose, st.Visits p

/-- Between two statements the arm is at the point where it is believed to be. -/
structure Settled (st : Station) (w : Logged σ) (arm : ArmState) : Prop where
  pose : w.trace.pose st.homeArm.pose = arm.pose
  attains : st.Attains arm.pose
  cleared : st.Cleared w

section Plans

variable {d : Device σ} {w : Logged σ} {arm : ArmState} {Q : Unit → Logged σ → ArmState → Prop}

/-- A drive to a point of the station, which fails where the arm is or leads to the point. -/
theorem ensures_drive {c : Call} (h : st.Cleared w) (hdrive : c.isDrive = true)
    (hpoint : st.Visits (c.lead (w.trace.pose st.homeArm.pose)))
    (hQ : ∀ w', w'.trace.pose st.homeArm.pose = c.lead (w.trace.pose st.homeArm.pose) →
      st.Cleared w' → Q () w' arm) :
    (Plan.act c).Ensures d.logged Q (fun w _ => st.Cleared w) w arm := by
  refine Plan.ensures_act_logged ?_ ?_
  · intro device
    refine hQ _ (Trace.pose_done c) ?_
    intro p hp
    rw [Trace.driven_of_drive hdrive, List.mem_cons] at hp
    rcases hp with rfl | hp
    · exact hpoint
    · exact h p hp
  · intro device answer hanswer p hp
    rw [Trace.driven_of_ne_done hanswer] at hp
    exact h p hp

/-- A call to the wrist or the pump leaves the arm where it is. -/
theorem ensures_still {c : Call} (h : st.Cleared w) (hstill : c.isStill = true)
    (hQ : ∀ w', w'.trace.pose st.homeArm.pose = w.trace.pose st.homeArm.pose →
      st.Cleared w' → Q () w' arm) :
    (Plan.act c).Ensures d.logged Q (fun w _ => st.Cleared w) w arm := by
  refine Plan.ensures_act_logged ?_ ?_
  · intro device
    refine hQ _ ((Trace.pose_done c).trans (Call.lead_of_still hstill _)) ?_
    intro p hp
    rw [Trace.driven_of_not_drive (Call.not_drive_of_still hstill)] at hp
    exact h p hp
  · intro device answer hanswer p hp
    rw [Trace.driven_of_ne_done hanswer] at hp
    exact h p hp

/-- The arm travels to a point that statements attain. -/
theorem ensures_travel (h : st.Settled w arm) (x y : Int32) :
    (st.travel arm x y).Ensures d.logged (fun v w' arm' => arm' = v.1 ∧ st.Settled w' v.1)
      (fun w' _ => st.Cleared w') w arm := by
  unfold travel
  cases hspot : st.workspace.spotAt x y arm.pose.z with
  | error fault => exact h.cleared
  | ok spot =>
    have hthere : st.Attains (.above spot arm.pose.z) := .move h.attains hspot
    have hlead : (Call.moveXY spot.x spot.y).lead (w.trace.pose st.homeArm.pose) =
        .above spot arm.pose.z := by
      rw [h.pose]
      rfl
    simp only [Plan.ofExcept, Plan.bind_eq, Plan.done_bind, Plan.ensures_bind]
    refine ensures_drive h.cleared rfl (hlead ▸ .attained hthere) fun w₁ hpose₁ h₁ => ?_
    refine ensures_still h₁ rfl fun w₂ hpose₂ h₂ => ?_
    exact ⟨rfl, hpose₂.trans (hpose₁.trans hlead), hthere, h₂⟩

/-- Between two statements a call to the wrist or the pump may come in. -/
theorem Settled.ensures_still {c : Call} (h : st.Settled w arm) (hstill : c.isStill = true)
    (hQ : ∀ w', st.Settled w' arm → Q () w' arm) :
    (Plan.act c).Ensures d.logged Q (fun w _ => st.Cleared w) w arm := by
  refine Station.ensures_still h.cleared hstill ?_
  intro w' hpose hcleared
  exact hQ w' ⟨hpose.trans h.pose, h.attains, hcleared⟩

/-- A new belief about the wrist is of no account. -/
theorem Settled.wrist {arm' : ArmState} (h : st.Settled w arm) (hpose : arm'.pose = arm.pose) :
    st.Settled w arm' := ⟨h.pose.trans hpose.symm, hpose ▸ h.attains, h.cleared⟩

theorem ensures_move (h : st.Settled w arm) (x y : Int32) :
    (st.move arm x y).Ensures d.logged (fun _ => st.Settled) (fun w _ => st.Cleared w) w arm := by
  unfold move
  rw [Plan.bind_eq, Plan.ensures_bind]
  refine (ensures_travel h x y).mono ?_ (fun _ _ h => h)
  rintro ⟨there, setting⟩ w' arm' ⟨rfl, h'⟩
  simp only [Plan.bind_eq, Plan.ensures_bind, Plan.ensures_warnOf]
  exact Plan.ensures_checked (fun _ _ => h') h'.cleared

theorem ensures_lift (h : st.Settled w arm) (z : Int32) :
    (st.lift arm z).Ensures d.logged (fun _ => st.Settled) (fun w _ => st.Cleared w) w arm := by
  unfold lift
  cases hheight : st.workspace.heightAt z arm.pose.spot with
  | error fault => exact h.cleared
  | ok height =>
    have hthere : st.Attains { arm.pose with z := height } := .lift h.attains hheight
    have hlead : (Call.moveZ height).lead (w.trace.pose st.homeArm.pose) =
        { arm.pose with z := height } := by
      rw [h.pose]
      rfl
    simp only [Plan.ofExcept, Plan.bind_eq, Plan.done_bind, Plan.ensures_bind]
    refine ensures_drive h.cleared rfl (hlead ▸ .attained hthere) ?_
    intro w' hpose hcleared
    exact ⟨hpose.trans hlead, hthere, hcleared⟩

/-- The arm dips below the point where it is, and comes back to it. -/
theorem ensures_grip (h : st.Settled w arm) :
    (st.grip arm).Ensures d.logged (fun _ => st.Settled) (fun w _ => st.Cleared w) w arm := by
  have hdip : (Call.moveZ (arm.pose.z + st.settings.gripCorrection)).lead arm.pose =
      st.dip arm.pose := rfl
  have hback : (Call.moveZ arm.pose.z).lead (st.dip arm.pose) = arm.pose := rfl
  unfold grip
  simp only [Plan.bind_eq, Plan.ensures_bind, Plan.ensures_assume]
  -- the wrist, the dip, the pump, and the way back up
  refine h.ensures_still rfl fun w₁ h₁ => ?_
  refine ensures_drive h₁.cleared rfl ?_ fun w₂ hpose₂ h₂ => ?_
  · rw [h₁.pose, hdip]
    exact .dip h.attains
  rw [h₁.pose, hdip] at hpose₂
  refine Station.ensures_still h₂ rfl fun w₃ hpose₃ h₃ => ?_
  rw [hpose₂] at hpose₃
  refine ensures_drive h₃ rfl ?_ fun w₄ hpose₄ h₄ => ?_
  · rw [hpose₃, hback]
    exact .attained h.attains
  rw [hpose₃, hback] at hpose₄
  exact ⟨hpose₄, h.attains, h₄⟩

theorem ensures_turn (h : st.Settled w arm) (degrees : Int32) :
    (st.turn arm degrees).Ensures d.logged (fun _ => st.Settled) (fun w _ => st.Cleared w) w
      arm := by
  unfold turn
  simp only [Plan.bind_eq, Plan.ensures_bind, Plan.ensures_assume, Plan.ensures_warnOf]
  refine h.ensures_still rfl fun w' h' => ?_
  exact Plan.ensures_checked (fun _ _ => h'.wrist rfl) h'.cleared

theorem ensures_centerWrist (h : st.Settled w arm) :
    (st.centerWrist arm).Ensures d.logged (fun _ => st.Settled) (fun w _ => st.Cleared w) w
      arm := by
  unfold centerWrist
  simp only [Plan.bind_eq, Plan.ensures_bind, Plan.ensures_assume]
  refine h.ensures_still rfl fun w' h' => ?_
  exact Plan.ensures_checked (fun _ _ => h'.wrist rfl) h'.cleared

/-- A sweep turns the wrist only, however far it gets. -/
theorem ensures_sweepTo (high step : Float) (n : Nat) :
    ∀ (angle : Float) {w : Logged σ}, st.Settled w arm →
      (sweepTo high step n angle).Ensures d.logged (fun _ w' arm' => arm' = arm ∧ st.Settled w' arm)
        (fun w _ => st.Cleared w) w arm := by
  -- the induction is on the bound: rounding may keep the angle from getting ahead
  induction n with
  | zero =>
    intro angle w h
    exact h.cleared
  | succ n ih =>
    intro angle w h
    unfold sweepTo
    split
    · refine (?_ : ((Plan.act (.setWrist angle)).bind fun _ =>
        sweepTo high step n (angle + step)).Ensures d.logged _ _ w arm)
      rw [Plan.ensures_bind]
      refine h.ensures_still rfl fun w' h' => ?_
      exact ih (angle + step) h'
    · exact ⟨rfl, h⟩

theorem ensures_sweep (h : st.Settled w arm) :
    (st.sweep arm).Ensures d.logged (fun _ => st.Settled) (fun w _ => st.Cleared w) w arm := by
  unfold sweep
  simp only [Plan.bind_eq, Plan.ensures_bind]
  refine (ensures_sweepTo _ _ _ _ h).mono ?_ (fun _ _ h => h)
  rintro - w' arm' ⟨rfl, h'⟩
  refine h'.ensures_still rfl fun w'' h'' => ?_
  exact h''

/-- Every leg of a tour ends at a point that statements attain. -/
theorem ensures_visit (columns : List (Int32 × Int32)) :
    ∀ (drift : Int32) {w : Logged σ} {arm : ArmState}, st.Settled w arm →
      (st.visit arm drift columns).Ensures d.logged (fun _ => st.Settled)
        (fun w _ => st.Cleared w) w arm := by
  -- each leg begins where the one before it has led to
  induction columns with
  | nil =>
    intro drift w arm h
    exact h
  | cons column columns ih =>
    intro drift w arm h
    obtain ⟨x, y⟩ := column
    unfold visit
    rw [Plan.bind_eq, Plan.ensures_bind]
    refine (ensures_travel h x y).mono ?_ (fun _ _ h => h)
    rintro ⟨there, setting⟩ w' arm' ⟨rfl, h'⟩
    simp only [Plan.bind_eq, Plan.ensures_bind, Plan.ensures_warnOf]
    refine Plan.ensures_checked (fun turned _ => ?_) h'.cleared
    exact Plan.ensures_checked (fun sum _ => ih sum h') h'.cleared

theorem ensures_diagnose (h : st.Settled w arm) (line : Nat) (arguments : List Int32) :
    (st.diagnose arm line arguments).Ensures d.logged (fun _ => st.Settled)
      (fun w _ => st.Cleared w) w arm := by
  unfold diagnose
  split
  · exact ensures_centerWrist h
  · split
    · exact ensures_sweep h
    · split
      · unfold tour
        rw [Plan.bind_eq, Plan.ensures_bind]
        exact ensures_visit _ 0 h
      · exact h.cleared

/-- A statement leaves the arm at a point that statements attain. -/
theorem ensures_plan (h : st.Settled w arm) (statement : Statement) :
    (st.plan arm statement).Ensures d.logged (fun _ => st.Settled) (fun w _ => st.Cleared w) w
      arm := by
  obtain ⟨line, command⟩ := statement
  refine (?_ : (st.commandPlan arm line command).Ensures d.logged _ _ w arm)
  cases command with
  | move x y => exact ensures_move h x y
  | lift z => exact ensures_lift h z
  | grip => exact ensures_grip h
  | release =>
    unfold commandPlan release
    simp only [Plan.bind_eq, Plan.ensures_bind]
    exact h.ensures_still rfl fun w' h' => h'
  | turn degrees => exact ensures_turn h degrees
  | diagnose arguments => exact ensures_diagnose h line arguments

/-- Parking crosses to the home column first and then goes to the home height. -/
theorem ensures_park (h : st.Settled w arm) (hhome : st.homePose = .ok st.homeArm.pose) :
    st.park.Ensures d.logged (fun _ => st.Settled) (fun w _ => st.Cleared w) w arm := by
  have hcross : (Call.moveXY st.homeArm.pose.x st.homeArm.pose.y).lead arm.pose =
      st.crossing arm.pose := rfl
  have hback : (Call.moveZ st.homeArm.pose.z).lead (st.crossing arm.pose) = st.homeArm.pose := rfl
  unfold park
  rw [hhome]
  simp only [Plan.ofExcept, Plan.bind_eq, Plan.done_bind, Plan.ensures_bind]
  refine h.ensures_still rfl fun w₁ h₁ => ?_
  refine ensures_drive h₁.cleared rfl ?_ fun w₂ hpose₂ h₂ => ?_
  · rw [h₁.pose, hcross]
    exact .crossing h.attains
  rw [h₁.pose, hcross] at hpose₂
  refine ensures_drive h₂ rfl ?_ fun w₃ hpose₃ h₃ => ?_
  · rw [hpose₂, hback]
    exact .attained .home
  rw [hpose₂, hback] at hpose₃
  exact ⟨hpose₃, .home, h₃⟩

end Plans

end Station

end BlockArm
