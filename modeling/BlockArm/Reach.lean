/-
# From the board to the arm

The centre of each cell has a place in the arm's frame (`Workspace.image`).  The arm reaches a
point that lies in the torus around the shoulder circle, in front of the base and outside the dead
zone (`Workspace.reaches`); `spotAt`, `spot` and `heightAt` check this on the way.

Seen from the base, a place has a bearing.  When the arm moves, the wrist turns by the change of
the bearing, so that a held block keeps its orientation.
-/
import BlockArm.Workspace

namespace BlockArm

open Number

/-! ## Places -/

/-- A place in the horizontal plane of the arm, in millimetres. -/
structure Spot where
  x : Float
  y : Float

/-- A point in the frame of the arm, in millimetres. -/
structure Pose where
  x : Float
  y : Float
  z : Float

namespace Pose

/-- The point above a place at a height. -/
def above (s : Spot) (z : Float) : Pose := ⟨s.x, s.y, z⟩

/-- The place below a point. -/
def spot (p : Pose) : Spot := ⟨p.x, p.y⟩

/-- The base of the arm. -/
def zero : Pose := ⟨0, 0, 0⟩

/-- A point as `[x, y, z]`. -/
def text (p : Pose) : String :=
  "[" ++ shortest p.x ++ ", " ++ shortest p.y ++ ", " ++ shortest p.z ++ "]"

@[simp] theorem spot_above (s : Spot) (z : Float) : (above s z).spot = s := rfl

@[simp] theorem above_spot (p : Pose) : above p.spot p.z = p := rfl

end Pose

/-- Degrees in a radian. -/
def degreesPerRadian : Float := 57.29577951308232

/-- The bearing of a place seen from the base, in degrees. -/
def Spot.bearing (s : Spot) : Float := Float.atan2 s.y s.x * degreesPerRadian

namespace Workspace

/-! ## The image of the board -/

/-- The centre of a column of cells. -/
def center (w : Workspace) (x y : Int32) : Spot :=
  ⟨(ofInt32 x + 0.5) * w.edge + w.xOffset, (ofInt32 y + 0.5) * w.edge + w.yOffset⟩

/-- The arm height of a grid height. -/
def height (w : Workspace) (z : Int32) : Float := w.zOffset + ofInt32 z * w.edge

/-- The place of a cell in the arm's frame. -/
def image (w : Workspace) (c : Cell) : Pose := .above (w.center c.x c.y) (w.height c.z)

/-! ## Reach -/

/-- Whether a point lies in the workspace of the arm. -/
def reaches (w : Workspace) (p : Pose) : Bool :=
  let flat := length p.x p.y
  let outward := (flat - w.shoulderDistance).abs
  let upward := (p.z - w.shoulderHeight).abs
  length outward upward ≤ w.maxRadius - w.shoulderDistance && 0 ≤ p.x && w.minRadius < flat

/-- The centre of a column, if the arm reaches it at the height `z`. -/
def spotAt (w : Workspace) (x y : Int32) (z : Float) : Except Fault Spot :=
  let s := w.center x y
  if w.reaches (.above s z) then .ok s else .error (.unreachablePosition s.x s.y)

/-- The centre of a column, if the arm reaches it at the height of the shoulder. -/
def spot (w : Workspace) (x y : Int32) : Except Fault Spot := w.spotAt x y w.shoulderHeight

/-- The arm height of a grid height, if the arm reaches it above a place. -/
def heightAt (w : Workspace) (z : Int32) (s : Spot) : Except Fault Float :=
  let h := w.height z
  if h < w.floorHeight ∨ w.reaches (.above s h) = false then .error (.unreachableHeight h)
  else .ok h

/-! ## The wrist above a place -/

/-- The wrist setting that keeps a held block's orientation on the way from one place to another. -/
def follow (w : Workspace) (current : Float) (old new : Spot) : WristSetting Float :=
  w.wrist.follow current (bearingChange old.bearing new.bearing)

/-- The wrist setting after an explicit turn. -/
def turn (w : Workspace) (current degrees : Float) : WristSetting Float :=
  w.wrist.turn current degrees

/-- The wanted wrist angle before gripping: the middle of the range, offset by the bearing. -/
def gripTarget (w : Workspace) (s : Spot) : Float := w.wristCenter + s.bearing

/-- The wrist angle before gripping, which leaves the most room for later moves. -/
def gripAngle (w : Workspace) (s : Spot) : Float := w.wrist.clamp (w.gripTarget s)

end Workspace

/-! ## Warnings -/

/-- The warning of a wrist setting that left the range. -/
def WristSetting.warning? : WristSetting Float → Option WristWarning
  | .exact _ => none
  | .clamped requested applied => some ⟨requested, applied⟩

/-- The wording of a warning. -/
def WristWarning.message (v : WristWarning) : String :=
  "wrist angle " ++ fixed 1 v.requested ++ "° is outside the servo range, using " ++
    fixed 1 v.applied ++ "°"

end BlockArm
