/-
# What the commands do

`Station.plan` writes down the steps of a command.  The block world does not appear here: a plan
ends with the `Effect` that its command has on the blocks, which is applied once all its steps have
succeeded.
-/
import BlockArm.Arm.Station
import BlockArm.Text.Whole

namespace BlockArm

/-- What a command does to the blocks. -/
inductive Effect where
  /-- The block at the cell is picked up. -/
  | grip (cell : Cell)
  /-- The held block is put down at the cell. -/
  | release (cell : Cell)
  /-- The held block, if there is one, is turned by an angle in degrees. -/
  | turn (degrees : Int32)
  deriving DecidableEq, Repr

/-- The multiple of 90 nearest to an angle, if 32 bits hold it.  The number of quarter turns is cut
off at the ends of that range, the degrees are not. -/
def snapToQuarter? (degrees : Float) : Option Int32 :=
  Text.int32? ((Number.nearestInt32 (degrees / 90)).toInt * 90)

/-- How far a held block turns when the wrist could not follow a move. -/
def WristSetting.drift? : WristSetting Float → Option Int32
  | .exact _ => some 0
  | .clamped requested applied => snapToQuarter? (applied - requested)

/-- The sum of two turns, if 32 bits hold it. -/
def addTurns? (m n : Int32) : Option Int32 := Text.int32? (m.toInt + n.toInt)

namespace Station

/-! ## Moving -/

/-- Moves above a column of cells at the current height.  The wrist is carried along so that a held
block keeps its orientation.  Answers where the arm is then, and the wrist setting. -/
def travel (s : Station) (arm : ArmState) (x y : Int32) :
    Plan (ArmState × WristSetting Float) := do
  let spot ← Plan.ofExcept (s.workspace.spotAt x y arm.pose.z)
  let setting := s.workspace.follow arm.wrist arm.pose.spot spot
  Plan.act (.moveXY spot.x spot.y)
  Plan.act (.setWrist setting.angle)
  let there : ArmState :=
    { cell := { arm.cell with x, y }, pose := .above spot arm.pose.z, wrist := setting.angle }
  Plan.assume there
  pure (there, setting)

/-- Moves above a column of cells. -/
def move (s : Station) (arm : ArmState) (x y : Int32) : Plan Effect := do
  let (_, setting) ← s.travel arm x y
  Plan.warnOf setting
  let drift ← Plan.checked setting.drift?
  pure (.turn drift)

/-- Changes the grid height. -/
def lift (s : Station) (arm : ArmState) (z : Int32) : Plan Effect := do
  let height ← Plan.ofExcept (s.workspace.heightAt z arm.pose.spot)
  Plan.act (.moveZ height)
  Plan.assume { arm with cell := { arm.cell with z }, pose := { arm.pose with z := height } }
  pure (.turn 0)

/-! ## Gripping -/

/-- Takes the wrist angle that leaves the most room, dips onto the block and switches the pump on. -/
def grip (s : Station) (arm : ArmState) : Plan Effect := do
  let wrist := s.workspace.gripAngle arm.pose.spot
  Plan.act (.setWrist wrist)
  Plan.assume { arm with wrist }
  Plan.act (.moveZ (arm.pose.z + s.settings.gripCorrection))
  Plan.act (.pump true)
  Plan.act (.moveZ arm.pose.z)
  pure (.grip arm.cell)

/-- Switches the pump off. -/
def release (arm : ArmState) : Plan Effect := do
  Plan.act (.pump false)
  pure (.release arm.cell)

/-- Turns the wrist; a held block turns as far as the servo did. -/
def turn (s : Station) (arm : ArmState) (degrees : Int32) : Plan Effect := do
  let setting := s.workspace.turn arm.wrist (Number.ofInt32 degrees)
  Plan.act (.setWrist setting.angle)
  Plan.assume { arm with wrist := setting.angle }
  Plan.warnOf setting
  let turned ← Plan.checked (snapToQuarter? (setting.angle - arm.wrist))
  pure (.turn turned)

/-! ## Diagnostics -/

/-- Centres the wrist. -/
def centerWrist (s : Station) (arm : ArmState) : Plan Effect := do
  let center := s.workspace.wristCenter
  Plan.act (.setWrist center)
  Plan.assume { arm with wrist := center }
  let turned ← Plan.checked (snapToQuarter? (center - arm.wrist))
  pure (.turn turned)

/-- More steps than any sweep takes that gets ahead at every step. -/
def sweepBound : Nat := 4611686018427387904

/-- Sets the wrist to one angle after the other up to `high`.  A sweep whose step is lost in
rounding does not get ahead and has no end. -/
def sweepTo (high step : Float) : Nat → Float → Plan Unit
  | 0, _ => .broken .endless
  | n + 1, angle =>
    if angle ≤ high then
      .note .debug ("servo sweep at " ++ Number.fixed 0 angle ++ "°")
        (.call (.setWrist angle) fun _ => sweepTo high step n (angle + step))
    else .done ()

/-- The step of a sweep, at least one degree. -/
def Settings.sweepStride (settings : Settings) : Float :=
  if 1 < settings.sweepStep then settings.sweepStep else 1

/-- Sweeps the wrist through its range and restores it. -/
def sweep (s : Station) (arm : ArmState) : Plan Effect := do
  let range := s.workspace.wrist
  sweepTo range.high (Settings.sweepStride s.settings) sweepBound range.low
  Plan.act (.setWrist arm.wrist)
  pure (.turn 0)

/-- The columns that the tour visits. -/
def tourColumns : List (Int32 × Int32) :=
  [5, 6].flatMap fun x => [3, 4, 5, 6, 7, 8, 9, 10, 11].map fun y => (x, y)

/-- Visits columns one after the other and adds up how far a held block drifts. -/
def visit (s : Station) (arm : ArmState) (drift : Int32) : List (Int32 × Int32) → Plan Int32
  | [] => pure drift
  | (x, y) :: columns => do
    let (there, setting) ← s.travel arm x y
    Plan.warnOf setting
    let turned ← Plan.checked setting.drift?
    let drift ← Plan.checked (addTurns? drift turned)
    s.visit there drift columns

/-- Visits the columns of the tour and comes back. -/
def tour (s : Station) (arm : ArmState) : Plan Effect := do
  let drift ← s.visit arm 0 (tourColumns ++ [(arm.cell.x, arm.cell.y)])
  pure (.turn drift)

/-- The test chosen by the first argument. -/
def diagnose (s : Station) (arm : ArmState) (line : Nat) (arguments : List Int32) : Plan Effect :=
  match arguments with
  | [] => s.centerWrist arm
  | mode :: _ =>
    if mode = 0 then s.sweep arm
    else if mode = 1 then s.tour arm
    else .fail (.misuse line (.diagnosticMode mode))

/-! ## Commands -/

/-- The steps of a command. -/
def commandPlan (s : Station) (arm : ArmState) (line : Nat) : Command → Plan Effect
  | .move x y => s.move arm x y
  | .lift z => s.lift arm z
  | .grip => s.grip arm
  | .release => release arm
  | .turn degrees => s.turn arm degrees
  | .diagnose arguments => s.diagnose arm line arguments

/-- The steps of a statement, which is logged first. -/
def plan (s : Station) (arm : ArmState) (statement : Statement) : Plan Effect :=
  .note .debug (Fault.onLine statement.line statement.command.describe)
    (s.commandPlan arm statement.line statement.command)

end Station

end BlockArm
