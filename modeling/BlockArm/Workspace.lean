/-
# The workspace of an arm

Where the board lies in the arm's frame and how far the arm reaches, in millimetres and degrees.
The defaults describe a board of 16 × 16 cells whose centre line runs through the base of the arm.
`check` refuses values that leave nothing to reach or an inverted wrist range.
-/
import BlockArm.Fault
import BlockArm.Wrist

namespace BlockArm

/-- The board's placement in the arm frame and the limits of the arm. -/
structure Workspace where
  /-- The side of a grid cell. -/
  edge : Float := 40
  /-- The grid origin along the arm's x axis. -/
  xOffset : Float := 0
  /-- The grid origin along the arm's y axis. -/
  yOffset : Float := -320
  /-- The arm height at grid height zero. -/
  zOffset : Float := 0
  /-- The distance of the shoulder joint from the base axis. -/
  shoulderDistance : Float := 0
  /-- The height of the shoulder joint. -/
  shoulderHeight : Float := 0
  /-- The dead zone around the base. -/
  minRadius : Float := 120
  /-- The outer reach, measured from the base axis. -/
  maxRadius : Float := 346
  /-- The lowest height of the gripper, if it is not the height of the grid's floor. -/
  minHeight : Option Float := none
  /-- The range of the wrist servo. -/
  wrist : WristRange Float := ⟨12, 168⟩

namespace Workspace

/-- Refuses a workspace in which nothing can be reached or the wrist has no range.  The conditions
are such that an edge or a servo limit that is no number is refused as well. -/
def check (w : Workspace) : Except Misconfiguration Unit :=
  if ¬ 0 < w.edge then .error (.edgeLength w.edge)
  else if w.minRadius < 0 ∨ w.maxRadius ≤ w.minRadius then
    .error (.radiusRange w.minRadius w.maxRadius)
  else if w.maxRadius ≤ w.shoulderDistance then .error .shoulder
  else if ¬ w.wrist.low < w.wrist.high then .error (.servoRange w.wrist.low w.wrist.high)
  else .ok ()

/-- The lowest height that the gripper may be sent to. -/
def floorHeight (w : Workspace) : Float := w.minHeight.getD w.zOffset

/-- The middle of the wrist range, the neutral pose of the wrist. -/
def wristCenter (w : Workspace) : Float := (w.wrist.low + w.wrist.high) / 2

end Workspace

end BlockArm
