/-
# Which calls the plans make

Apart from gripping and releasing, which also switch the pump, statements only drive the arm and
turn its wrist, and so does parking.  A kind of calls that has none of these in it is therefore
avoided.

* `Station.avoids_plan`: statements avoid such calls;
* `Station.avoids_park`: so does parking.
-/
import BlockArm.Run.Motion
import BlockArm.Proofs.Arm.PlanLogic

namespace BlockArm

/-- Driving the arm and turning its wrist are not among the bad calls. -/
structure Call.Spares (bad : Call → Bool) : Prop where
  moveXY : ∀ x y, bad (.moveXY x y) = false
  moveZ : ∀ z, bad (.moveZ z) = false
  setWrist : ∀ angle, bad (.setWrist angle) = false

namespace Station

open Plan

variable {bad : Call → Bool} (st : Station) (arm : ArmState)

theorem avoids_travel (h : Call.Spares bad) (x y : Int32) : (st.travel arm x y).Avoids bad :=
  (avoids_ofExcept _).bind fun _ => (avoids_act (h.moveXY _ _)).bind fun _ =>
    (avoids_act (h.setWrist _)).bind fun _ => trivial

/-- A sweep only turns the wrist, however far it gets. -/
theorem avoids_sweepTo (h : Call.Spares bad) (high step : Float) (n : Nat) :
    ∀ angle : Float, (sweepTo high step n angle).Avoids bad := by
  induction n with
  | zero =>
    intro angle
    trivial
  | succ n ih =>
    intro angle
    unfold sweepTo
    split
    · exact ⟨h.setWrist angle, ih (angle + step)⟩
    · trivial

theorem avoids_visit (h : Call.Spares bad) (columns : List (Int32 × Int32)) :
    ∀ (arm : ArmState) (drift : Int32), (st.visit arm drift columns).Avoids bad := by
  induction columns with
  | nil =>
    intro arm drift
    trivial
  | cons column columns ih =>
    intro arm drift
    refine (st.avoids_travel arm h _ _).bind ?_
    rintro ⟨there, setting⟩
    exact (avoids_warnOf setting).bind fun _ => (avoids_checked _).bind fun _ =>
      (avoids_checked _).bind fun _ => ih there _

theorem avoids_diagnose (h : Call.Spares bad) (line : Nat) (arguments : List Int32) :
    (st.diagnose arm line arguments).Avoids bad := by
  unfold diagnose
  split
  · exact (avoids_act (h.setWrist _)).bind fun _ => (avoids_checked _).bind fun _ => trivial
  · split
    · exact (avoids_sweepTo h _ _ _ _).bind fun _ =>
        (avoids_act (h.setWrist _)).bind fun _ => trivial
    · split
      · exact (st.avoids_visit h _ arm 0).bind fun _ => trivial
      · trivial

/-- A statement makes no bad call if it does not switch the pump in a bad way. -/
theorem avoids_plan (h : Call.Spares bad) (statement : Statement)
    (hgrip : statement.command = .grip → bad (.pump true) = false)
    (hrelease : statement.command = .release → bad (.pump false) = false) :
    (st.plan arm statement).Avoids bad := by
  obtain ⟨line, command⟩ := statement
  refine (?_ : (st.commandPlan arm line command).Avoids bad)
  cases command with
  | move x y =>
    refine (st.avoids_travel arm h x y).bind ?_
    rintro ⟨there, setting⟩
    exact (avoids_warnOf setting).bind fun _ => (avoids_checked _).bind fun _ => trivial
  | lift z =>
    exact (avoids_ofExcept _).bind fun _ => (avoids_act (h.moveZ _)).bind fun _ => trivial
  | grip =>
    exact (avoids_act (h.setWrist _)).bind fun _ => (avoids_act (h.moveZ _)).bind fun _ =>
      (avoids_act (hgrip rfl)).bind fun _ => (avoids_act (h.moveZ _)).bind fun _ => trivial
  | release => exact (avoids_act (hrelease rfl)).bind fun _ => trivial
  | turn degrees =>
    exact (avoids_act (h.setWrist _)).bind fun _ => (avoids_warnOf _).bind fun _ =>
      (avoids_checked _).bind fun _ => trivial
  | diagnose arguments => exact st.avoids_diagnose arm h line arguments

/-- Parking makes no bad call. -/
theorem avoids_park (h : Call.Spares bad) : st.park.Avoids bad :=
  (avoids_ofExcept _).bind fun _ => (avoids_act (h.setWrist _)).bind fun _ =>
    (avoids_act (h.moveXY _ _)).bind fun _ => (avoids_act (h.moveZ _)).bind fun _ => trivial

end Station

end BlockArm
