/-
# What the plans keep up

The plans set the wrist to angles of four kinds only: those of a setting, those of a sweep, the
middle of the range, and the angle for gripping.  They take down a place only after the geometry
was asked about it.  What this is enough for, statements and parking keep up on any device.

* `Station.Upholds`: angles and beliefs that settings, sweeps and the geometry lead to again;
* `Station.keeps_plan`, `Station.keeps_park`, `Station.keeps_home`: plans keep such angles and
  beliefs up;
* `Station.Upholds.run`: and so do runs.
-/
import BlockArm.Proofs.Arm.Conduct
import BlockArm.Proofs.Wrist.Range
import BlockArm.Proofs.Run.Logic

namespace BlockArm

/-- Whether a call turns the wrist to an angle that is not a good one. -/
def Call.turnsAmiss (good : Float → Bool) : Call → Bool
  | .setWrist angle => !good angle
  | .moveXY _ _ | .moveZ _ | .pump _ | .reset => false

namespace Station

open Plan

/-- The angles that are good and the beliefs of which `B` holds suffice for the plans of a station,
except for the angle that is taken for gripping. -/
structure Upholds (st : Station) (good : Float → Bool) (B : ArmState → Prop) : Prop where
  settled : ∀ target others, good (st.workspace.wrist.settle target others).angle = true
  swept : ∀ {angle}, st.workspace.wrist.contains angle = true → good angle = true
  centered : good st.workspace.wristCenter = true
  held : ∀ {arm}, B arm → good arm.wrist = true
  turned : ∀ {arm angle}, B arm → good angle = true → B { arm with wrist := angle }
  moved : ∀ {arm x y spot}, B arm → st.workspace.spotAt x y arm.pose.z = .ok spot →
    B { arm with cell := { arm.cell with x, y }, pose := .above spot arm.pose.z }
  lifted : ∀ {arm z height}, B arm → st.workspace.heightAt z arm.pose.spot = .ok height →
    B { arm with cell := { arm.cell with z }, pose := { arm.pose with z := height } }
  parked : ∀ {pose}, st.homePose = .ok pose → B ⟨st.settings.home, pose, st.workspace.wristCenter⟩

/-- The stride of a sweep leads upwards. -/
theorem zero_le_sweepStride (settings : Settings) : 0 ≤ Settings.sweepStride settings := by
  have hone : (0 : Float) ≤ 1 := by decide +kernel
  unfold Settings.sweepStride
  split
  · next hlt =>
    obtain ⟨hzero, -, hle⟩ := Number.le_iff.mp hone
    obtain ⟨-, hnumber, hlt'⟩ := Number.lt_iff.mp hlt
    exact Number.le_iff.mpr ⟨hzero, hnumber, by omega⟩
  · exact hone

section

variable {st : Station} {looks : Prop} {good : Float → Bool} {B : ArmState → Prop}
  {arm : ArmState}

theorem keeps_setWrist {angle : Float} (h : good angle = true) :
    (act (.setWrist angle)).Keeps looks (Call.turnsAmiss good) B fun _ => True :=
  keeps_act (by rw [Call.turnsAmiss, h]; rfl)

variable (h : st.Upholds good B)

include h

theorem keeps_travel (hB : B arm) (x y : Int32) :
    (st.travel arm x y).Keeps looks (Call.turnsAmiss good) B fun v => B v.1 := by
  unfold travel
  simp only [bind_eq]
  refine (keeps_ofExcept (Q := fun spot => st.workspace.spotAt x y arm.pose.z = .ok spot)
    fun _ hspot => hspot).bind fun spot hspot => ?_
  have hgood := h.settled
    (arm.wrist + bearingChange arm.pose.spot.bearing spot.bearing)
    [arm.wrist + bearingChange arm.pose.spot.bearing spot.bearing - Degrees.whole 180]
  have hthere := h.turned (h.moved hB hspot) hgood
  refine (keeps_act rfl).bind fun _ _ => ?_
  refine (keeps_setWrist hgood).bind fun _ _ => ?_
  exact (keeps_assume hthere).bind fun _ _ => hthere

/-- A sweep sets the wrist to angles of the range only. -/
theorem keeps_sweepTo {step : Float} (hstep : 0 ≤ step) (n : Nat) :
    ∀ angle : Float, (angle ≤ st.workspace.wrist.high → st.workspace.wrist.contains angle = true) →
      (sweepTo st.workspace.wrist.high step n angle).Keeps looks (Call.turnsAmiss good) B
        fun _ => True := by
  induction n with
  | zero =>
    intro angle _
    trivial
  | succ n ih =>
    intro angle hangle
    unfold sweepTo
    split
    · next hle =>
      have hcontains := hangle hle
      refine ⟨?_, ih _ fun hnext =>
        WristRange.contains_step hcontains hstep hnext⟩
      rw [Call.turnsAmiss, h.swept hcontains]
      rfl
    · trivial

theorem keeps_sweep (hB : B arm) :
    (st.sweep arm).Keeps looks (Call.turnsAmiss good) B fun _ => True := by
  unfold sweep
  simp only [bind_eq]
  refine (keeps_sweepTo h (zero_le_sweepStride st.settings) _ _
    fun hle => WristRange.contains_low hle).bind fun _ _ => ?_
  exact (keeps_setWrist (h.held hB)).bind fun _ _ => trivial

/-- Each leg of a tour begins where the one before it has led to. -/
theorem keeps_visit (columns : List (Int32 × Int32)) :
    ∀ {arm : ArmState} (drift : Int32), B arm →
      (st.visit arm drift columns).Keeps looks (Call.turnsAmiss good) B fun _ => True := by
  induction columns with
  | nil =>
    intro arm drift _
    trivial
  | cons column columns ih =>
    intro arm drift hB
    refine (keeps_travel h hB _ _).bind ?_
    rintro ⟨there, setting⟩ hthere
    refine (keeps_warnOf _).bind fun _ _ => ?_
    exact (keeps_checked _).bind fun _ _ => (keeps_checked _).bind fun _ _ => ih _ hthere

theorem keeps_diagnose (hB : B arm) (line : Nat) (arguments : List Int32) :
    (st.diagnose arm line arguments).Keeps looks (Call.turnsAmiss good) B fun _ => True := by
  unfold diagnose
  split
  · refine (keeps_setWrist h.centered).bind fun _ _ => ?_
    refine (keeps_assume (h.turned hB h.centered)).bind fun _ _ => ?_
    exact (keeps_checked _).bind fun _ _ => trivial
  · split
    · exact keeps_sweep h hB
    · split
      · exact (keeps_visit h _ 0 hB).bind fun _ _ => trivial
      · trivial

/-- Statements turn the wrist to good angles and take down good beliefs, if the angle for gripping
is a good one. -/
theorem keeps_plan (hB : B arm) (statement : Statement)
    (hgrip : statement.command = .grip →
      good (st.workspace.gripAngle arm.pose.spot) = true) :
    (st.plan arm statement).Keeps looks (Call.turnsAmiss good) B fun _ => True := by
  obtain ⟨line, command⟩ := statement
  refine (?_ : (st.commandPlan arm line command).Keeps looks _ B _)
  cases command with
  | move x y =>
    refine (keeps_travel h hB x y).bind ?_
    rintro ⟨there, setting⟩ _
    refine (keeps_warnOf _).bind fun _ _ => ?_
    exact (keeps_checked _).bind fun _ _ => trivial
  | lift z =>
    refine (keeps_ofExcept (Q := fun height => st.workspace.heightAt z arm.pose.spot = .ok height)
      fun _ hheight => hheight).bind fun height hheight => ?_
    refine (keeps_act rfl).bind fun _ _ => ?_
    exact (keeps_assume (h.lifted hB hheight)).bind fun _ _ => trivial
  | grip =>
    have hgood := hgrip rfl
    refine (keeps_setWrist hgood).bind fun _ _ => ?_
    refine (keeps_assume (h.turned hB hgood)).bind fun _ _ => ?_
    refine (keeps_act rfl).bind fun _ _ => ?_
    refine (keeps_act rfl).bind fun _ _ => ?_
    exact (keeps_act rfl).bind fun _ _ => trivial
  | release => exact (keeps_act rfl).bind fun _ _ => trivial
  | turn degrees =>
    have hgood := h.settled (arm.wrist + Number.ofInt32 degrees)
      [arm.wrist + Number.ofInt32 degrees - Degrees.whole 180,
        arm.wrist + Number.ofInt32 degrees + Degrees.whole 180]
    refine (keeps_setWrist hgood).bind fun _ _ => ?_
    refine (keeps_assume (h.turned hB hgood)).bind fun _ _ => ?_
    refine (keeps_warnOf _).bind fun _ _ => ?_
    exact (keeps_checked _).bind fun _ _ => trivial
  | diagnose arguments => exact keeps_diagnose h hB line arguments

/-- Parking centres the wrist and takes down the home pose. -/
theorem keeps_park : st.park.Keeps looks (Call.turnsAmiss good) B fun _ => True := by
  refine (keeps_ofExcept (Q := fun pose => st.homePose = .ok pose) fun _ hpose => hpose).bind
    fun pose hpose => ?_
  refine (keeps_setWrist h.centered).bind fun _ _ => ?_
  refine (keeps_act rfl).bind fun _ _ => ?_
  refine (keeps_act rfl).bind fun _ _ => ?_
  exact keeps_assume (h.parked hpose)

/-- So does a drive home, if it does not matter where the device says that the arm is. -/
theorem keeps_home (hplaced : ∀ pose, B { arm with pose }) :
    (st.home arm).Keeps True (Call.turnsAmiss good) B fun _ => True := by
  refine (keeps_act rfl).bind fun _ _ => ⟨trivial, fun pose => ⟨hplaced pose, ?_⟩⟩
  exact (keeps_act rfl).bind fun _ _ => keeps_park h

/-! ## Runs -/

/-- Runs keep good angles and good beliefs up, and with them what good calls keep of the device. -/
theorem Upholds.run {σ : Type} {d : Device σ} {T : σ → Prop}
    (hT : ∀ c device, Call.turnsAmiss good c = false → T device → T (d.perform c device).2)
    {program : Program} {s : Scene σ}
    (hgrips : ∀ x ∈ Scene.stages st d program (s.begin program), x.statement.command = .grip →
      good (st.workspace.gripAngle x.before.rig.arm.pose.spot) = true)
    (hs : T s.rig.device) (hB : B s.rig.arm) :
    T (Scene.run st d program s).2.rig.device ∧ B (Scene.run st d program s).2.rig.arm := by
  obtain ⟨hdevice, harm⟩ := s.begin_rig program
  have hsay := Scene.keeps_say (σ := σ) (A := fun device arm => T device ∧ B arm)
  refine Scene.run_stages (I := fun s => T s.rig.device ∧ B s.rig.arm)
    (E := fun s => T s.rig.device ∧ B s.rig.arm)
    (F := fun out => T out.2.rig.device ∧ B out.2.rig.arm) hsay hsay
    (hdevice ▸ harm ▸ ⟨hs, hB⟩) ?_ ?_ ?_ ?_ ?_
  · intro x hx hbefore
    have hplan : (st.plan x.before.rig.arm x.statement).Keeps False _ B _ :=
      keeps_plan h hbefore.2 x.statement (hgrips x hx)
    exact Scene.leaves_perform (I := fun device arm => T device ∧ B arm)
      ((hplan.ensures hT hbefore.1 hbefore.2).mono (fun _ _ _ h => h.2) fun _ _ h => h)
      fun _ _ h => h
  · intro n t ht
    refine Scene.conclude_ensures _ (E := fun device arm => T device ∧ B arm) ?_
    have hpark : st.park.Keeps False _ B _ := keeps_park h
    exact (hpark.ensures hT ht.1 ht.2).mono (fun _ _ _ h => h.2) fun _ _ h => h
  · exact fun n t ht => ht
  · exact fun fault n t ht => ht
  · exact fun b t ht => ht

end

end Station

end BlockArm
