/-
# Where runs drive the arm

* `Scene.visits_of_mem_driven`: runs drive the arm to attained points, dips and crossings only;
* `Scene.driven_permitted_iff`: they keep to the permitted points exactly where every dip and every
  crossing is permitted.
-/
import BlockArm.Proofs.Arm.Workspace
import BlockArm.Proofs.Run.Points
import BlockArm.Proofs.Run.Lockstep
import BlockArm.Proofs.Run.Logging
import BlockArm.Proofs.Run.Logic
import BlockArm.Proofs.Run.ServoTurns

namespace BlockArm

variable {σ : Type}

/-! ## What runs drive to -/

namespace Scene

variable {st : Station} {workspace : Workspace} {settings : Settings}

/-- The arm is believed to be at home. -/
def AtHome (st : Station) (s : Scene σ) : Prop := s.rig.arm.pose = st.homeArm.pose

/-- A run from home drives the arm to attained points, to dips and to crossings only. -/
theorem visits_of_mem_driven (h : Station.build workspace settings = .ok st) (d : Device σ)
    (program : Program) {s : Scene σ} (hs : s.AtHome st) :
    ∀ p ∈ driven st d program s, st.Visits p := by
  have hsettled : st.Settled s.logged.rig.device s.logged.rig.arm := by
    refine ⟨hs.symm, ?_, ?_⟩
    · refine (show st.Attains s.rig.arm.pose from ?_)
      rw [hs]
      exact .home
    · -- the trace of the run begins with the run
      intro p hp
      exact absurd hp List.not_mem_nil
  refine run_ensures (I := st.Settled) (E := fun w _ => st.Cleared w) ?_ ?_ ?_ program hsettled
  · intro statement w arm h'
    exact Station.ensures_plan h' statement
  · intro w arm h'
    exact h'.cleared
  · intro w arm h'
    refine (Station.ensures_park h' (Station.homePose_of_build h).1).mono ?_ (fun _ _ h => h)
    intro u w' arm' h''
    exact h''.cleared

end Scene

/-! ## An obliging device -/

/-- The device that does every call at once. -/
def Device.obliging : Device Unit where
  perform _ s := (⟨.done, false⟩, s)
  pose _ := .ok .zero

/-- A call to the obliging device is done. -/
@[simp] theorem Plan.ensures_act_obliging {Q : Unit → Logged Unit → ArmState → Prop}
    {E : Logged Unit → ArmState → Prop} (c : Call) :
    (act c).Ensures Device.obliging.logged Q E =
      fun w arm => Q () ⟨(), (c, .done) :: w.trace⟩ arm := rfl

/-- Nobody asks for a stop on the obliging device. -/
theorem Device.undisturbed_obliging : obliging.Undisturbed := fun _ _ => rfl

namespace Scene

variable {st : Station}

/-- Without a challenge, with the obliging device, at a point, and with the wrist in its range: the next
statement is carried out whenever the geometry admits it. -/
structure Ready (st : Station) (q : Pose) (s : Scene (Logged Unit)) : Prop where
  stop : s.rig.stop = false
  world : s.world = none
  belief : s.rig.arm.pose = q
  wrist : st.workspace.wrist.covers s.rig.arm.wrist = true
  pose : s.rig.device.trace.pose st.homeArm.pose = q

/-- A statement whose plan cannot fail is carried out. -/
theorem Ready.perform {q q' : Pose} {s : Scene (Logged Unit)} {K : Logged Unit → Prop}
    (h : s.Ready st q) (statement : Statement)
    (hplan : (st.plan s.rig.arm statement).Ensures Device.obliging.logged
      (fun _ w arm => arm.pose = q' ∧ st.workspace.wrist.covers arm.wrist = true ∧
        w.trace.pose st.homeArm.pose = q' ∧ K w)
      (fun _ _ => False) s.rig.device s.rig.arm) :
    ∃ t, Scene.perform st Device.obliging.logged statement s = (.value (), t) ∧
      t.Ready st q' ∧ K t.rig.device := by
  obtain ⟨rig, world⟩ := s
  obtain rfl : world = none := h.world
  replace hplan : (st.plan rig.arm statement).Ensures Device.obliging.logged _ _ rig.device
    rig.arm := hplan
  have hstop := Plan.stop_exec (d := Device.obliging.logged)
    (fun c w => Device.undisturbed_obliging c w.device) (st.plan rig.arm statement) rig
  obtain ⟨effect, after, hexec, hbelief, hwrist, hpose, hK⟩ := Plan.exists_value_of_ensures hplan
  simp only [Scene.perform]
  rw [hexec] at hstop ⊢
  exact ⟨⟨after, none⟩, rfl, ⟨hstop.trans h.stop, rfl, hbelief, hwrist, hpose⟩, hK⟩

variable (hrange : st.workspace.wrist.low ≤ st.workspace.wrist.high)

include hrange in
/-- The obliging device moves above a column that is reached. -/
theorem Ready.move {q : Pose} {x y : Int32} {spot : Spot} {s : Scene (Logged Unit)}
    (h : s.Ready st q) (hspot : st.workspace.spotAt x y q.z = .ok spot) :
    ∃ t, Scene.perform st Device.obliging.logged ⟨0, .move x y⟩ s = (.value (), t) ∧
      t.Ready st (.above spot q.z) := by
  -- the wrist is in its range, so that its drift fits
  obtain ⟨m, hdrift, -⟩ := Workspace.exists_drift_of_follow h.wrist q.spot spot
  obtain ⟨t, hperform, ht, -⟩ := h.perform (K := fun _ => True) ⟨0, .move x y⟩
    (show (st.move s.rig.arm x y).Ensures _ _ _ _ _ by
      simp only [Station.move, Station.travel, h.belief, hspot, Plan.ofExcept, Plan.bind_eq,
        Plan.done_bind, Plan.ensures_bind, Plan.ensures_act_obliging, Plan.ensures_assume,
        Plan.ensures_warnOf, Plan.pure_eq, Plan.ensures_done, hdrift, Plan.checked,
        Trace.pose_done, h.pose]
      exact ⟨rfl, WristRange.covers_settle hrange _ _, rfl, trivial⟩)
  exact ⟨t, hperform, ht⟩

/-- The obliging device changes to a height that is reached. -/
theorem Ready.lift {q : Pose} {z : Int32} {height : Float} {s : Scene (Logged Unit)}
    (h : s.Ready st q) (hheight : st.workspace.heightAt z q.spot = .ok height) :
    ∃ t, Scene.perform st Device.obliging.logged ⟨0, .lift z⟩ s = (.value (), t) ∧
      t.Ready st { q with z := height } := by
  obtain ⟨t, hperform, ht, -⟩ := h.perform (K := fun _ => True) ⟨0, .lift z⟩
    (show (st.lift s.rig.arm z).Ensures _ _ _ _ _ by
      simp only [Station.lift, h.belief, hheight, Plan.ofExcept, Plan.bind_eq, Plan.done_bind,
        Plan.ensures_bind, Plan.ensures_act_obliging, Plan.ensures_assume, Plan.pure_eq,
        Plan.ensures_done, Trace.pose_done, h.pose]
      exact ⟨rfl, h.wrist, rfl, trivial⟩)
  exact ⟨t, hperform, ht⟩

include hrange in
/-- The obliging device dips below the point where it is. -/
theorem Ready.grip {q : Pose} {s : Scene (Logged Unit)} (h : s.Ready st q) :
    ∃ t, Scene.perform st Device.obliging.logged ⟨0, .grip⟩ s = (.value (), t) ∧ t.Ready st q ∧
      st.dip q ∈ t.rig.device.trace.driven st.homeArm.pose := by
  have hplan : (st.grip s.rig.arm).Ensures Device.obliging.logged
      (fun _ w arm => arm.pose = q ∧ st.workspace.wrist.covers arm.wrist = true ∧
        w.trace.pose st.homeArm.pose = q ∧ st.dip q ∈ w.trace.driven st.homeArm.pose)
      (fun _ _ => False) s.rig.device s.rig.arm := by
    simp only [Station.grip, h.belief, Plan.bind_eq, Plan.ensures_bind,
      Plan.ensures_act_obliging, Plan.ensures_assume, Plan.pure_eq, Plan.ensures_done,
      Trace.pose_done, h.pose]
    refine ⟨trivial, Workspace.covers_gripAngle hrange q.spot, rfl, ?_⟩
    rw [Trace.driven_of_drive rfl, Trace.driven_of_not_drive rfl, Trace.driven_of_drive rfl]
    simp only [Trace.pose_done, h.pose]
    exact List.mem_cons_of_mem _ List.mem_cons_self
  exact h.perform (K := fun w => st.dip q ∈ w.trace.driven st.homeArm.pose) ⟨0, .grip⟩ hplan

/-- The program takes the arm from home to a point, whatever comes after it. -/
def LeadsTo (st : Station) (program : Program) (q : Pose) : Prop :=
  ∀ (rest : Program) (n : Nat) (s : Scene (Logged Unit)), s.Ready st st.homeArm.pose →
    ∃ t, t.Ready st q ∧ performAll st Device.obliging.logged n (program ++ rest) s =
      performAll st Device.obliging.logged (n + program.length) rest t

/-- A program can be continued by a statement that is carried out where it leads to. -/
theorem LeadsTo.snoc {program : Program} {statement : Statement} {q q' : Pose}
    (h : LeadsTo st program q)
    (hstatement : ∀ t : Scene (Logged Unit), t.Ready st q → ∃ t',
      perform st Device.obliging.logged statement t = (.value (), t') ∧ t'.Ready st q') :
    LeadsTo st (program ++ [statement]) q' := by
  intro rest n s hs
  obtain ⟨t, ht, hall⟩ := h (statement :: rest) n s hs
  obtain ⟨t', hperform, ht'⟩ := hstatement t ht
  refine ⟨t', ht', ?_⟩
  rw [List.append_assoc, List.singleton_append, hall, performAll, hperform,
    if_neg (by rw [ht.stop]; exact Bool.false_ne_true), List.length_append, List.length_singleton,
    Nat.add_assoc]

include hrange in
/-- Some program leads to every attained point. -/
theorem exists_leadsTo {q : Pose} (h : st.Attains q) : ∃ program, LeadsTo st program q := by
  induction h with
  | home =>
    refine ⟨[], ?_⟩
    intro rest n s hs
    exact ⟨s, hs, rfl⟩
  | move _ hspot ih =>
    obtain ⟨program, hprogram⟩ := ih
    exact ⟨_, hprogram.snoc fun t ht => ht.move hrange hspot⟩
  | lift _ hheight ih =>
    obtain ⟨program, hprogram⟩ := ih
    exact ⟨_, hprogram.snoc fun t ht => ht.lift hheight⟩

/-- The arm at home, on the obliging device, with the wrist at the lower end of its range. -/
def obligingHome (st : Station) : Scene Unit where
  rig := { st.rig () with arm := { st.homeArm with wrist := st.workspace.wrist.low } }

include hrange in
theorem ready_begin_obligingHome (program : Program) :
    ((obligingHome st).logged.begin program).Ready st st.homeArm.pose := by
  obtain ⟨hdevice, harm⟩ := (obligingHome st).logged.begin_rig program
  obtain ⟨hrig, hworld⟩ := begin_agrees program (obligingHome st).logged
  refine ⟨hrig.stop, hworld, ?_, ?_, ?_⟩
  · rw [harm]
    rfl
  · rw [harm]
    exact WristRange.covers_iff.mpr (.inr (WristRange.contains_low hrange))
  · rw [hdevice]
    rfl

include hrange in
/-- Some run of the obliging device dips from an attained point. -/
theorem exists_run_dip {q : Pose} (h : st.Attains q) :
    ∃ program, st.dip q ∈ driven st Device.obliging program (obligingHome st) := by
  obtain ⟨program, hprogram⟩ := exists_leadsTo hrange h
  refine ⟨program ++ [⟨0, .grip⟩], ?_⟩
  obtain ⟨t, ht, hall⟩ := hprogram [⟨0, .grip⟩] 0 _
    (ready_begin_obligingHome hrange (program ++ [⟨0, .grip⟩]))
  obtain ⟨t', hperform, ht', hdip⟩ := ht.grip hrange
  rw [driven, run, hall, performAll, hperform, if_neg (by rw [ht.stop]; exact Bool.false_ne_true)]
  refine conclude_ensures
    (E := fun (w : Logged Unit) _ => st.dip q ∈ w.trace.driven st.homeArm.pose) _ ?_
  -- the dip is in the trace already, and parking only adds to it
  refine (st.park.avoids_nothing.ensures_extends Device.obliging _ (.refl _ _)).mono ?_ ?_
  · rintro - w arm ⟨later, htrace, -⟩
    exact htrace ▸ Trace.mem_driven_append later hdip
  · rintro w arm ⟨later, htrace, -⟩
    exact htrace ▸ Trace.mem_driven_append later hdip

include hrange in
/-- Some run of the obliging device crosses from an attained point when it parks. -/
theorem exists_run_crossing {q : Pose} (h : st.Attains q)
    (hhome : st.homePose = .ok st.homeArm.pose) :
    ∃ program, st.crossing q ∈ driven st Device.obliging program (obligingHome st) := by
  obtain ⟨program, hprogram⟩ := exists_leadsTo hrange h
  refine ⟨program, ?_⟩
  obtain ⟨t, ht, hall⟩ := hprogram [] 0 _ (ready_begin_obligingHome hrange program)
  rw [List.append_nil] at hall
  rw [driven, run, hall]
  refine conclude_ensures
    (E := fun (w : Logged Unit) _ => st.crossing q ∈ w.trace.driven st.homeArm.pose) _ ?_
  simp only [Station.park, hhome, Plan.ofExcept, Plan.bind_eq, Plan.done_bind, Plan.ensures_bind,
    Plan.ensures_act_obliging, Plan.ensures_assume]
  rw [Trace.driven_of_drive rfl, Trace.driven_of_drive rfl, Trace.pose_done, Trace.pose_done,
    ht.pose]
  exact List.mem_cons_of_mem _ List.mem_cons_self

/-! ## Where the drives are safe -/

/-- Every run from home, on any device, keeps to the permitted points. -/
def KeepsClear (st : Station) : Prop :=
  ∀ (σ : Type) (d : Device σ) (program : Program) (s : Scene σ), s.AtHome st →
    ∀ p ∈ driven st d program s, st.Permits p

/-- **Clearance of runs.**  On a station that was built, a run that begins at home drives the arm to
permitted points, to dips and to crossings.  All runs keep to the permitted points exactly where
each dip and each crossing from an attained point is permitted. -/
theorem driven_permitted_iff {workspace : Workspace} {settings : Settings}
    (h : Station.build workspace settings = .ok st) :
    (∀ (σ : Type) (d : Device σ) (program : Program) (s : Scene σ), s.AtHome st →
      ∀ p ∈ driven st d program s,
        st.Permits p ∨ ∃ q, st.Attains q ∧ (p = st.dip q ∨ p = st.crossing q)) ∧
    (KeepsClear st ↔ ∀ q, st.Attains q → st.Permits (st.dip q) ∧ st.Permits (st.crossing q)) := by
  obtain ⟨hhome, hpermits⟩ := Station.homePose_of_build h
  have hdriven : ∀ (σ : Type) (d : Device σ) (program : Program) (s : Scene σ), s.AtHome st →
      ∀ p ∈ driven st d program s,
        st.Permits p ∨ ∃ q, st.Attains q ∧ (p = st.dip q ∨ p = st.crossing q) := by
    intro σ d program s hs p hp
    cases visits_of_mem_driven h d program hs p hp with
    | attained hq => exact .inl (hq.permits hpermits)
    | dip hq => exact .inr ⟨_, hq, .inl rfl⟩
    | crossing hq => exact .inr ⟨_, hq, .inr rfl⟩
  refine ⟨hdriven, ?_, ?_⟩
  · intro hall q hq
    have hrange := Workspace.low_le_high_of_check (Station.check_of_build h)
    obtain ⟨program, hdip⟩ := exists_run_dip hrange hq
    obtain ⟨program', hcrossing⟩ := exists_run_crossing hrange hq hhome
    have hathome : (obligingHome st).AtHome st := rfl
    exact ⟨hall Unit _ program _ hathome _ hdip, hall Unit _ program' _ hathome _ hcrossing⟩
  · intro hall σ d program s hs p hp
    rcases hdriven σ d program s hs p hp with hp | ⟨q, hq, rfl | rfl⟩
    · exact hp
    · exact (hall q hq).1
    · exact (hall q hq).2

/-- The standard station with a home cell at the edge of the reach. -/
def edgeStation : Station := { workspace := {}, settings := { home := ⟨8, 7, 0⟩ } }

/-- The floor is attained at the standard station, and the dip from there goes below it. -/
theorem exists_low_dip : ∃ q, Station.standard.Attains q ∧
    ¬ Station.standard.Permits (Station.standard.dip q) := by
  obtain ⟨height, hheight⟩ : ∃ height, Station.standard.workspace.heightAt 0
      Station.standard.homeArm.pose.spot = .ok height :=
    exists_eq_ok (by decide +kernel)
  have hlow : (Station.standard.dip { Station.standard.homeArm.pose with
      z := Station.standard.workspace.height 0 }).z < Station.standard.workspace.floorHeight := by
    decide +kernel
  obtain ⟨rfl, -⟩ := Station.heightAt_eq_ok hheight
  exact ⟨_, .lift .home hheight, fun hpermits => hpermits.2 hlow⟩

/-- From the middle of the board the arm can rise so high that it does not reach above the home cell
at the edge. -/
theorem exists_far_crossing : ∃ q, edgeStation.Attains q ∧
    ¬ edgeStation.Permits (edgeStation.crossing q) := by
  obtain ⟨spot, hspot⟩ : ∃ spot, edgeStation.workspace.spotAt 3 8 edgeStation.homeArm.pose.z =
      .ok spot := exists_eq_ok (by decide +kernel)
  obtain ⟨rfl, -⟩ := Station.spotAt_eq_ok hspot
  obtain ⟨height, hheight⟩ : ∃ height, edgeStation.workspace.heightAt 3
      (edgeStation.workspace.center 3 8) = .ok height :=
    exists_eq_ok (by decide +kernel)
  have hfar : edgeStation.workspace.reaches (.above edgeStation.homeArm.pose.spot
      (edgeStation.workspace.height 3)) = false := by
    decide +kernel
  obtain ⟨rfl, -⟩ := Station.heightAt_eq_ok hheight
  refine ⟨_, .lift (.move .home hspot) hheight, fun hpermits => ?_⟩
  exact absurd (hpermits.1.symm.trans hfar) (by decide)

/-- Neither at the standard station nor with a home cell at the edge do all runs keep clear. -/
theorem not_keepsClear_standard_edge : ¬ KeepsClear .standard ∧ ¬ KeepsClear edgeStation := by
  constructor
  · intro hall
    obtain ⟨q, hq, hdip⟩ := exists_low_dip
    exact hdip ((driven_permitted_iff Station.build_standard).2.mp hall q hq).1
  · intro hall
    obtain ⟨q, hq, hcrossing⟩ := exists_far_crossing
    have hbuild : Station.build {} { home := ⟨8, 7, 0⟩ } = .ok edgeStation :=
      Station.build_eq_ok (by decide +kernel) (by decide +kernel)
    exact hcrossing ((driven_permitted_iff hbuild).2.mp hall q hq).2

/-- The standard arm at home, on a recording device that is there, too. -/
def recorderHome : Scene Recorder where
  rig := Station.standard.rig { pose := Station.standard.homeArm.pose }

/-- A grip on the floor of the standard board drives the gripper below the floor. -/
theorem exists_driven_not_permitted : recorderHome.AtHome .standard ∧
    ∃ p ∈ driven .standard Device.recorder [⟨1, .lift 0⟩, ⟨2, .grip⟩] recorderHome,
      ¬ Station.standard.Permits p := by
  have hlow : (driven .standard Device.recorder [⟨1, .lift 0⟩, ⟨2, .grip⟩] recorderHome).any
      (fun p => p.z < Station.standard.workspace.floorHeight) = true := by
    decide +kernel
  obtain ⟨p, hp, hz⟩ := List.any_eq_true.mp hlow
  exact ⟨rfl, p, hp, fun hpermits => hpermits.2 (of_decide_eq_true hz)⟩

end Scene

end BlockArm
