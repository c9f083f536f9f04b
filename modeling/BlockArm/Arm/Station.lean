/-
# Stations

A station is a workspace that was checked, together with the habits of its arm.  `Station.build`
refuses a home cell that the arm cannot reach.  `park` brings the arm to the home cell, and `home`
resets it before that.
-/
import BlockArm.Arm.Plan

namespace BlockArm

/-- The habits of an arm. -/
structure Settings where
  /-- The cell and the grid height at which the arm parks. -/
  home : Cell := ⟨3, 8, 2⟩
  /-- How much farther the arm goes down while the pump is switched on, in millimetres. -/
  gripCorrection : Float := -9
  /-- The step of the servo sweep in degrees. -/
  sweepStep : Float := 10
  verbosity : Verbosity := .normal

/-- A workspace and the habits of its arm. -/
structure Station where
  workspace : Workspace
  settings : Settings

namespace Station

/-- The home cell in the arm's frame, if the arm reaches it. -/
def homePose (s : Station) : Except Fault Pose :=
  let home := s.settings.home
  match s.workspace.spot home.x home.y with
  | .error fault => .error fault
  | .ok spot => match s.workspace.heightAt home.z spot with
    | .error fault => .error fault
    | .ok z => .ok (.above spot z)

/-- A station with a workspace that makes sense and a home cell within reach. -/
def build (workspace : Workspace) (settings : Settings) : Except Fault Station :=
  let s : Station := { workspace, settings }
  match workspace.check with
  | .error cause => .error (.misconfigured cause)
  | .ok () => match s.homePose with
    | .error fault => .error fault
    | .ok _ => .ok s

/-- The station with the default values. -/
def standard : Station := { workspace := {}, settings := {} }

/-- The arm at home with a centred wrist. -/
def homeArm (s : Station) : ArmState :=
  { cell := s.settings.home
    pose := s.workspace.image s.settings.home
    wrist := s.workspace.wristCenter }

/-- The rig before its first run. -/
def rig {σ : Type} (s : Station) (device : σ) : Rig σ :=
  { device, arm := s.homeArm, verbosity := s.settings.verbosity }

/-! ## Going home -/

/-- Centres the wrist and moves to the home cell and height; the pump stays as it is. -/
def park (s : Station) : Plan Unit := do
  let pose ← Plan.ofExcept s.homePose
  let wrist := s.workspace.wristCenter
  Plan.act (.setWrist wrist)
  Plan.act (.moveXY pose.x pose.y)
  Plan.act (.moveZ pose.z)
  Plan.assume { cell := s.settings.home, pose, wrist }

/-- Resets the arm, takes its word for where it is, switches the pump off and parks. -/
def home (s : Station) (arm : ArmState) : Plan Unit := do
  Plan.act .reset
  let pose ← Plan.locate Plan.done
  Plan.assume { arm with pose }
  Plan.act (.pump false)
  Plan.say .debug ("reset, arm reports " ++ pose.text)
  s.park

end Station

end BlockArm
