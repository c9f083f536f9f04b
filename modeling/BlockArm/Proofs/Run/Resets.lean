/-
# Which plans reset the arm

Only going home resets the arm, and it does so first.  Statements and parking never do, so that the
calls of a run contain no reset.

* `Station.avoids_reset_plan`, `Station.avoids_reset_park`: statements and parking do not reset;
* `Scene.runSource_extends`: a run adds calls to the trace, but no reset;
* `Scene.home_resets`: going home adds one reset, before all other calls.
-/
import BlockArm.Proofs.Run.Logic
import BlockArm.Proofs.Run.Steering

namespace BlockArm

variable {σ : Type}

/-! ## Plans -/

/-- Driving the arm and turning its wrist is not resetting it. -/
theorem Call.spares_isReset : Spares isReset := ⟨fun _ _ => rfl, fun _ => rfl, fun _ => rfl⟩

namespace Station

variable (st : Station)

/-- A statement does not reset the arm. -/
theorem avoids_reset_plan (arm : ArmState) (statement : Statement) :
    (st.plan arm statement).Avoids Call.isReset :=
  st.avoids_plan arm Call.spares_isReset statement (fun _ => rfl) (fun _ => rfl)

/-- Parking does not reset the arm. -/
theorem avoids_reset_park : st.park.Avoids Call.isReset := st.avoids_park Call.spares_isReset

end Station

/-! ## Runs -/

namespace Scene

variable (st : Station) (d : Device σ)

/-- A run adds calls to the trace, but no reset. -/
theorem run_extends (program : Program) (s : Scene (Logged σ)) :
    s.rig.device.Extends Call.isReset (run st d.logged program s).2.rig.device := by
  refine run_ensures (I := fun w _ => s.rig.device.Extends Call.isReset w)
    (E := fun w _ => s.rig.device.Extends Call.isReset w) ?_ ?_ ?_ program (.refl _ _)
  · intro statement w arm h
    exact (st.avoids_reset_plan arm statement).ensures_extends d arm h
  · intro w arm h
    exact h
  · intro w arm h
    exact st.avoids_reset_park.ensures_extends d arm h

/-- So does the run of a script, whether it reads or not. -/
theorem runSource_extends (source : List Char) (s : Scene (Logged σ)) :
    s.rig.device.Extends Call.isReset (runSource st d.logged source s).2.rig.device := by
  have hreject : ∀ fault, (reject fault s).2.rig.device = s.rig.device := by
    intro fault
    simp only [reject, say, Rig.device_say]
  unfold runSource
  split
  · next fault _ =>
    rw [hreject fault]
    exact .refl _ _
  · rw [hreject .emptyScript]
    exact .refl _ _
  · next program _ _ => exact run_extends st d program s

/-- Going home adds one reset, before all other calls. -/
theorem home_resets (r : Rig (Logged σ)) : ∃ (later : Trace) (answer : Answer),
    (home st d.logged r).2.device.trace = later ++ (.reset, answer) :: r.device.trace ∧
      ∀ entry ∈ later, entry.1.isReset = false := by
  have hplan : (st.home r.arm).Ensures d.logged
      (fun _ w _ => ∃ later answer, w.trace = later ++ (.reset, answer) :: r.device.trace ∧
        ∀ entry ∈ later, entry.1.isReset = false)
      (fun w _ => ∃ later answer, w.trace = later ++ (.reset, answer) :: r.device.trace ∧
        ∀ entry ∈ later, entry.1.isReset = false)
      r.device r.arm := by
    unfold Station.home
    rw [Plan.bind_eq, Plan.ensures_bind]
    refine Plan.ensures_act_logged ?_ ?_
    · -- what follows the reset adds no other one to the trace
      intro device
      have hrest : (Plan.locate Plan.done >>= fun pose => do
          Plan.assume { r.arm with pose }
          Plan.act (.pump false)
          Plan.say .debug ("reset, arm reports " ++ pose.text)
          st.park).Avoids Call.isReset :=
        fun pose => ⟨rfl, st.avoids_reset_park⟩
      refine hrest.ensures_extends d r.arm (.refl _ _) |>.mono ?_ ?_
      · rintro - w arm ⟨later, htrace, hlater⟩
        exact ⟨later, .done, htrace, hlater⟩
      · rintro w arm ⟨later, htrace, hlater⟩
        exact ⟨later, .done, htrace, hlater⟩
    · intro device answer _
      exact ⟨[], answer, rfl, fun _ h => absurd h List.not_mem_nil⟩
  have hmeets := Plan.ensures_exec hplan
  unfold home
  rcases hexec : (st.home r.arm).exec d.logged r with ⟨outcome, after⟩
  rw [hexec] at hmeets
  cases outcome with
  | value u => exact hmeets
  | fault fault => exact hmeets
  | broken b => exact hmeets

end Scene

end BlockArm
