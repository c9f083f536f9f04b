/-
# Logging does not show

A logged device answers as the device inside it, so that a run on it ends in the same way, with the
same world, as a run on the device itself.  What is proved of the traces of logged runs is therefore
true of all runs.

* `simulates_logged`: a logged device takes every step as the device itself does;
* `Scene.run_logged`: so it does with a whole run;
* `Scene.driven`: the points that a run from home drives the arm to.
-/
import BlockArm.Proofs.Arm.Trace
import BlockArm.Proofs.Run.Simulation

namespace BlockArm

variable {σ : Type}

/-! ## Steps -/

namespace Rig

/-- The rig with a trace that is still empty. -/
def logged (r : Rig σ) : Rig (Logged σ) :=
  { device := ⟨r.device, []⟩, stop := r.stop, arm := r.arm, state := r.state
    verbosity := r.verbosity, log := r.log, warnings := r.warnings }

/-- The rig without the trace. -/
def unlogged (r : Rig (Logged σ)) : Rig σ :=
  { device := r.device.device, stop := r.stop, arm := r.arm, state := r.state
    verbosity := r.verbosity, log := r.log, warnings := r.warnings }

@[simp] theorem unlogged_say (r : Rig (Logged σ)) (level : Level) (text : String) :
    (r.say level text).unlogged = r.unlogged.say level text := by
  unfold say
  split <;> rename_i h
  · exact (if_pos h).symm
  · exact (if_neg h).symm

end Rig

/-- A logged device takes every single step as the device inside it does. -/
theorem simulates_logged (d : Device σ) :
    Simulates d d.logged fun (r : Rig σ) (r' : Rig (Logged σ)) => r = r'.unlogged where
  arm_eq := by rintro _ r rfl; rfl
  warnings_eq := by rintro _ r rfl; rfl
  pose_eq := by rintro _ r rfl; rfl
  answer_eq := by rintro _ r rfl c; rfl
  ask := by rintro _ r rfl c; rfl
  say := by
    rintro _ r rfl level text
    exact (r.unlogged_say level text).symm
  believe := by rintro _ r rfl arm; rfl
  record := by rintro _ r rfl warnings; rfl
  enter := by rintro _ r rfl state; rfl

/-! ## Runs -/

namespace Scene

/-- The scene with a trace that is still empty. -/
def logged (s : Scene σ) : Scene (Logged σ) := ⟨s.rig.logged, s.world⟩

/-- The scene without the trace. -/
def unlogged (s : Scene (Logged σ)) : Scene σ := ⟨s.rig.unlogged, s.world⟩

theorem Related.eq_unlogged {s : Scene σ} {s' : Scene (Logged σ)}
    (h : Related (fun r r' => r = r'.unlogged) s s') : s = s'.unlogged := by
  rw [unlogged, ← h.rig, ← h.world]

/-- To every run there is a logged one, which answers the same and leaves the same scene. -/
theorem run_logged (st : Station) (d : Device σ) (program : Program) (s : Scene σ) :
    run st d program s = ((run st d.logged program s.logged).1,
      (run st d.logged program s.logged).2.unlogged) := by
  have hs : Related (fun (r : Rig σ) (r' : Rig (Logged σ)) => r = r'.unlogged) s s.logged :=
    ⟨rfl, rfl⟩
  obtain ⟨hreport, hafter⟩ := (simulates_logged d).run (fun h => h ▸ rfl) st program hs
  exact Prod.ext hreport hafter.eq_unlogged

/-- The points that a run drives the arm to, the latest first, when it begins at home. -/
def driven (st : Station) (d : Device σ) (program : Program) (s : Scene σ) : List Pose :=
  (run st d.logged program s.logged).2.rig.device.trace.driven st.homeArm.pose

end Scene

end BlockArm
