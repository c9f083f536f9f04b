/-
# Runs of programs

A run carries the statements out in order.  Before each it looks whether a stop was asked for; the
first fault ends it.  A run that gets through parks the arm, and where a challenge is played its
verdict is part of the report.

`Scene.run` runs a program, `Scene.runSource` a script text.  Both answer a `Report` and leave the
scene; there is no report of a run that breaks down.
-/
import BlockArm.Run.Scene
import BlockArm.Script

namespace BlockArm

/-! ## Reports -/

/-- What is told about a run. -/
structure Report where
  state : RunState := .idle
  /-- The verdict on the challenge, if one was played and the run got through. -/
  success? : Option Bool := none
  /-- The fault that ended the run. -/
  error? : Option Fault := none
  /-- The number of statements carried out in full. -/
  applied : Nat := 0
  /-- The problems that were got over, in order. -/
  warnings : List WristWarning := []

namespace Report

/-- The report of a run that failed before its first statement. -/
def failed (fault : Fault) : Report := { state := .failed, error? := some fault }

/-- The report of a run under way that has carried out so many statements. -/
def underway (applied : Nat) : Report := { state := .running, applied }

/-- Whether the run solved its challenge. -/
def isSuccess (r : Report) : Bool := r.success? == some true

/-- Whether the arm was left somewhere in the workspace. -/
def leftAway (r : Report) : Bool := r.state == .failed || r.state == .aborted

end Report

namespace Scene

variable {σ : Type}

/-! ## The statements of a run -/

/-- How the statements of a program were left, and how many were carried out. -/
structure Halt where
  outcome : Outcome Bool
  applied : Nat

/-- Carries statements out until one fails or a stop was asked for.  The outcome is whether all of
them were carried out. -/
def performAll (st : Station) (d : Device σ) (applied : Nat) : Program → Scene σ → Halt × Scene σ
  | [], s => (⟨.value true, applied⟩, s)
  | statement :: rest, s =>
    if s.rig.stop then
      (⟨.value false, applied⟩, s.say .info ("stopped after " ++ Text.natText applied ++ " command(s)"))
    else match perform st d statement s with
      | (.value (), s) => performAll st d (applied + 1) rest s
      | (.fault fault, s) =>
        (⟨.fault fault, applied⟩, s.say .error (Fault.onLine statement.line fault.message))
      | (.broken b, s) => (⟨.broken b, applied⟩, s)

/-! ## The frame of a run -/

/-- The scene at the beginning of a run. -/
def begin (program : Program) (s : Scene σ) : Scene σ :=
  let s := { s with rig := { s.rig with state := .running, warnings := #[] } }
  s.say .info ("running " ++ Text.natText program.length ++ " command(s)" ++
    (match s.world with
      | some w => " for challenge " ++ quoted w.name
      | none => ""))

/-- Ends a run in a state, which the report and the rig take down.  The warnings are those of the
rig. -/
def finish (state : RunState) (report : Report) (s : Scene σ) : Except Breakdown Report × Scene σ :=
  (.ok { report with state, warnings := s.rig.warnings.toList },
    { s with rig := { s.rig with state } })

/-- What is said about a verdict. -/
def verdictText : Option Bool → String
  | some true => "challenge solved"
  | some false => "challenge not solved yet"
  | none => "script finished"

/-- Parks the arm and judges the world. -/
def conclude (st : Station) (d : Device σ) (report : Report) (s : Scene σ) :
    Except Breakdown Report × Scene σ :=
  match st.park.exec d s.rig with
  | (.value (), rig) =>
    let success? := s.world.map World.solved
    finish .completed { report with success? } ({ s with rig }.say .info (verdictText success?))
  | (.fault fault, rig) =>
    finish .failed { report with error? := some fault }
      ({ s with rig }.say .error ("parking failed: " ++ fault.message))
  | (.broken b, rig) => (.error b, { s with rig })

/-- Runs a program. -/
def run (st : Station) (d : Device σ) (program : Program) (s : Scene σ) :
    Except Breakdown Report × Scene σ :=
  match performAll st d 0 program (s.begin program) with
  | (⟨.value true, applied⟩, s) => conclude st d (.underway applied) s
  | (⟨.value false, applied⟩, s) => finish .aborted (.underway applied) s
  | (⟨.fault fault, applied⟩, s) =>
    finish .failed { Report.underway applied with error? := some fault } s
  | (⟨.broken b, _⟩, s) => (.error b, s)

/-- A script that is not run at all. -/
def reject (fault : Fault) (s : Scene σ) : Except Breakdown Report × Scene σ :=
  let s := s.say .error ("script rejected: " ++ fault.message)
  (.ok (.failed fault), { s with rig := { s.rig with state := .failed } })

/-- Runs a script.  One that does not read or has no statements fails before any call is made. -/
def runSource (st : Station) (d : Device σ) (source : List Char) (s : Scene σ) :
    Except Breakdown Report × Scene σ :=
  match Script.parse source with
  | .error fault => reject fault s
  | .ok [] => reject .emptyScript s
  | .ok program => run st d program s

/-- Resets the arm and brings it home. -/
def home (st : Station) (d : Device σ) (r : Rig σ) : Outcome Unit × Rig σ :=
  (st.home r.arm).exec d r

end Scene

end BlockArm
