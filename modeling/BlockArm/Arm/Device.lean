/-
# Devices

The arm is reached through calls in its own frame, millimetres and degrees.  A `Device` says how a
state answers them: a call may be done, may fail, or may crash the program that drives the arm, and
somebody may ask for a stop while it is under way.

`Recorder` is the device without hardware: it records every call and tracks the pose.
-/
import BlockArm.Reach

namespace BlockArm

/-! ## Calls and answers -/

/-- A call to the arm. -/
inductive Call where
  /-- Move horizontally at the current height. -/
  | moveXY (x y : Float)
  /-- Move vertically above the current place. -/
  | moveZ (z : Float)
  /-- Turn the wrist to an angle. -/
  | setWrist (angle : Float)
  /-- Switch the pump. -/
  | pump (on : Bool)
  /-- Drive to the mechanical home position. -/
  | reset

/-- How a call ends. -/
inductive Answer where
  | done
  | failed (message : String)
  | crashed

/-- The answer to a call, and whether a stop was asked for by the time it came. -/
structure Reply where
  answer : Answer
  stop : Bool := false

/-- A device with states `σ`. -/
structure Device (σ : Type) where
  /-- Answers a call. -/
  perform : Call → σ → Reply × σ
  /-- Tells where the arm is. -/
  pose : σ → Except String Pose

/-! ## The recording device -/

/-- The state of the recording device. -/
structure Recorder where
  /-- The calls recorded, the oldest first. -/
  calls : Array Call := #[]
  /-- The place the arm was last driven to. -/
  pose : Pose := .zero
  wrist : Float := 0
  pumpOn : Bool := false
  /-- The number of recorded calls from which on every call fails. -/
  failAfter : Option Nat := none

namespace Recorder

/-- The message of a failed call. -/
def lost : String := "connection to the arm lost"

/-- Whether the next call fails. -/
def isLost (r : Recorder) : Bool := match r.failAfter with
  | some limit => limit ≤ r.calls.size
  | none => false

/-- The tracked state after a call. -/
def track (r : Recorder) : Call → Recorder
  | .moveXY x y => { r with pose := { r.pose with x, y } }
  | .moveZ z => { r with pose := { r.pose with z } }
  | .setWrist angle => { r with wrist := angle }
  | .pump on => { r with pumpOn := on }
  | .reset => { r with pose := .zero }

/-- Records a call and follows it, unless the connection is lost. -/
def perform (c : Call) (r : Recorder) : Reply × Recorder :=
  if r.isLost then (⟨.failed lost, false⟩, r)
  else
    let r := r.track c
    (⟨.done, false⟩, { r with calls := r.calls.push c })

/-- Forgets the recorded calls. -/
def clear (r : Recorder) : Recorder := { r with calls := #[] }

end Recorder

/-- The recording device. -/
def Device.recorder : Device Recorder where
  perform := Recorder.perform
  pose r := .ok r.pose

end BlockArm
