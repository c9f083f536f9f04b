/-
# The supervisor of an arm

The supervisor owns a rig.  It runs one script at a time; after a run that left the arm somewhere in
the workspace, the arm is brought home in the background, and the next run waits for that.

A background reset is a plan of which some steps may be outstanding (`Reset.running`) or an outcome
that nobody has asked for yet (`Reset.finished`).  `advance` takes one step of it, and may come
between any two operations; while a reset is running it has the rig for itself.
-/
import BlockArm.Catalog
import BlockArm.Run.Report
import BlockArm.World.Layout

namespace BlockArm

/-- A background reset. -/
inductive Reset where
  /-- None was started since the last one was waited for. -/
  | none
  /-- Under way, with these steps outstanding. -/
  | running (rest : Plan Unit)
  | finished (result : Except Fault Unit)

/-- An arm, what is known about it, and the background reset. -/
structure Supervisor (σ : Type) where
  rig : Rig σ
  /-- Whether the arm is known to be at home. -/
  homed : Bool := false
  reset : Reset := .none

namespace Supervisor

variable {σ : Type}

/-! ## Going home -/

/-- The fault of a reset that broke off. -/
def lostReset : Fault := .device "reset worker panicked"

/-- Whether the arm is known to be at home after an attempt.  A reset that broke off has not told. -/
def homedAfter (before : Bool) : Outcome Unit → Bool
  | .value () => true
  | .fault _ => false
  | .broken _ => before

/-- What a background reset tells about its outcome. -/
def resultOf : Outcome Unit → Except Fault Unit
  | .value () => .ok ()
  | .fault fault => .error fault
  | .broken _ => .error lostReset

/-- The supervisor when the background reset has come to its end. -/
def settled (s : Supervisor σ) (outcome : Outcome Unit) (rig : Rig σ) : Supervisor σ :=
  { rig, homed := homedAfter s.homed outcome, reset := .finished (resultOf outcome) }

/-- Lets the background reset take one step. -/
def advance (d : Device σ) (s : Supervisor σ) : Supervisor σ :=
  match s.reset with
  | .running plan => match plan.step d s.rig with
    | (.plan rest, rig) => { s with rig, reset := .running rest }
    | (.over outcome, rig) => s.settled outcome rig
  | .none | .finished _ => s

/-- Lets the background reset take all its outstanding steps. -/
def settle (d : Device σ) (s : Supervisor σ) : Supervisor σ :=
  match s.reset with
  | .running plan =>
    let (outcome, rig) := plan.exec d s.rig
    s.settled outcome rig
  | .none | .finished _ => s

/-- Whether a background reset is under way. -/
def isResetting (s : Supervisor σ) : Bool := match s.reset with
  | .running _ => true
  | .none | .finished _ => false

/-- The result of a reset that has come to its end, which is then forgotten. -/
def collect (s : Supervisor σ) : Option (Except Fault Unit) × Supervisor σ :=
  match s.reset with
  | .finished result => (some result, { s with reset := .none })
  | .none | .running _ => (Option.none, s)

/-- Waits for the background reset and answers its result, or nothing if none was started since the
last time. -/
def wait (d : Device σ) (s : Supervisor σ) : Option (Except Fault Unit) × Supervisor σ :=
  (s.settle d).collect

/-- Starts a background reset, unless one is under way; the answer is whether it was started.  A
result that nobody has asked for is dropped. -/
def startReset (st : Station) (s : Supervisor σ) : Bool × Supervisor σ :=
  if s.isResetting then (false, s)
  else (true, { s with reset := .running (st.home s.rig.arm) })

/-- Brings the arm home at once. -/
def home (st : Station) (d : Device σ) (s : Supervisor σ) : Outcome Unit × Supervisor σ :=
  let (outcome, rig) := Scene.home st d s.rig
  (outcome, { s with rig, homed := homedAfter s.homed outcome })

/-! ## Running scripts -/

/-- Runs a script in a world of its own, with the arm at home.  A run that gets through ends there,
too; one that breaks down has not told. -/
def runHomed (st : Station) (d : Device σ) (source : List Char) (world : Option World)
    (s : Supervisor σ) : Except Breakdown Report × Supervisor σ :=
  match Scene.runSource st d source { rig := s.rig, world } with
  | (.ok report, scene) =>
    (.ok report, { s with rig := scene.rig, homed := report.state == .completed })
  | (.error b, scene) => (.error b, { s with rig := scene.rig })

/-- Lays the challenge out, brings the arm home if it is not there, and runs the script. -/
def attempt (st : Station) (d : Device σ) (source : List Char) (challenge : Option Challenge)
    (s : Supervisor σ) : Except Breakdown Report × Supervisor σ :=
  match challenge.mapM World.ofChallenge with
  | .error fault => (.ok (.failed fault), s)
  | .ok world =>
    if s.homed then runHomed st d source world s
    else match s.home st d with
      | (.value (), s) => runHomed st d source world s
      | (.fault fault, s) => (.ok (.failed fault), s)
      | (.broken b, s) => (.error b, s)

/-- Runs a script, after the background reset has come to its end.  A run that left the arm away
from home is followed by a reset in the background. -/
def runScript (st : Station) (d : Device σ) (source : List Char) (challenge : Option Challenge)
    (s : Supervisor σ) : Except Breakdown Report × Supervisor σ :=
  let (_, s) := s.wait d
  match s.attempt st d source challenge with
  | (.ok report, s) => (.ok report, if report.leftAway then (s.startReset st).2 else s)
  | (.error b, s) => (.error b, s)

/-- Runs a script against a challenge of the catalog, and records the challenge when it is solved. -/
def runChallenge (st : Station) (d : Device σ) (source : List Char) (catalog : Catalog)
    (name : String) (progress : Progress) (s : Supervisor σ) :
    Except Breakdown Report × Progress × Supervisor σ :=
  match catalog.get name with
  | .error fault => (.ok (.failed fault), progress, s)
  | .ok challenge =>
    match s.runScript st d source (some challenge) with
    | (.ok report, s) =>
      (.ok report, if report.isSuccess then progress.record name else progress, s)
    | (.error b, s) => (.error b, progress, s)

end Supervisor

end BlockArm
