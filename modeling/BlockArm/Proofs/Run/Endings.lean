/-
# How runs end

A report keeps a state, a verdict and a fault in fields of their own, and a run sets them one by one.
Not all that could be written there makes sense: a verdict on a run that was stopped, a failure
without a fault.  An `Ending` is what does, and every exit of a run writes down one of them.

* `Report.ending?`: the ending that the fields of a report make up, if they do;
* `Scene.exists_ending_run`: every exit of a run writes down an ending;
* `Scene.exists_ending_runSource`: so do those of a script.
-/
import BlockArm.Run.Report

namespace BlockArm

variable {σ : Type}

/-! ## Endings -/

/-- How a run ends. -/
inductive Ending where
  /-- The arm has parked; `solved` is the verdict on the challenge, if one was played. -/
  | completed (solved : Option Bool)
  /-- A stop was asked for. -/
  | aborted
  | failed (fault : Fault)

namespace Ending

/-- The state of the rig after the run. -/
def state : Ending → RunState
  | completed _ => .completed
  | aborted => .aborted
  | failed _ => .failed

/-- The verdict on the challenge. -/
def success? : Ending → Option Bool
  | completed solved => solved
  | aborted | failed _ => none

/-- The fault that ended the run. -/
def error? : Ending → Option Fault
  | failed fault => some fault
  | completed _ | aborted => none

end Ending

namespace Report

variable {report : Report} {ending : Ending}

/-- The ending that the fields of a report make up. -/
def ending? (report : Report) : Option Ending := match report.state, report.success?, report.error? with
  | .completed, solved, none => some (.completed solved)
  | .aborted, none, none => some .aborted
  | .failed, none, some fault => some (.failed fault)
  | _, _, _ => none

/-- Fields make up an ending where all three are those of the ending. -/
theorem ending?_eq_some : report.ending? = some ending ↔
    report.state = ending.state ∧ report.success? = ending.success? ∧
      report.error? = ending.error? := by
  obtain ⟨state, success?, error?, applied, warnings⟩ := report
  cases ending <;> cases state <;> cases success? <;> cases error? <;>
    simp [ending?, Ending.state, Ending.success?, Ending.error?]

/-- The arm was left away from home unless the run was completed. -/
theorem leftAway_of_ending? (h : report.ending? = some ending) :
    report.leftAway = (report.state != .completed) := by
  obtain ⟨hstate, -⟩ := ending?_eq_some.mp h
  rw [leftAway, hstate]
  cases ending <;> rfl

end Report

/-! ## The exits of a run -/

namespace Scene

variable {st : Station} {d : Device σ} {program : Program} {s : Scene σ} {report : Report}

/-- What is reported at the end of a run that parks makes up an ending. -/
theorem exists_ending_conclude {n : Nat} (h : (conclude st d (.underway n) s).1 = .ok report) :
    ∃ ending, report.ending? = some ending := by
  unfold conclude at h
  rcases hpark : st.park.exec d s.rig with ⟨outcome, rig⟩
  rw [hpark] at h
  cases outcome with
  | value u =>
    obtain rfl := Except.ok.inj h
    exact ⟨.completed _, rfl⟩
  | fault fault =>
    obtain rfl := Except.ok.inj h
    exact ⟨.failed fault, rfl⟩
  | broken b => simp at h

/-- So does what is reported of any run. -/
theorem exists_ending_run (h : (run st d program s).1 = .ok report) :
    ∃ ending, report.ending? = some ending := by
  unfold run at h
  rcases hall : performAll st d 0 program (s.begin program) with ⟨⟨outcome, n⟩, t⟩
  rw [hall] at h
  cases outcome with
  | fault fault =>
    obtain rfl := Except.ok.inj h
    exact ⟨.failed fault, rfl⟩
  | broken b => simp at h
  | value all =>
    cases all with
    | true => exact exists_ending_conclude h
    | false =>
      obtain rfl := Except.ok.inj h
      exact ⟨.aborted, rfl⟩

/-- So does what is reported of a script, whether it reads or not. -/
theorem exists_ending_runSource {source : List Char}
    (h : (runSource st d source s).1 = .ok report) : ∃ ending, report.ending? = some ending := by
  unfold runSource at h
  split at h
  · obtain rfl := Except.ok.inj h
    exact ⟨.failed _, rfl⟩
  · obtain rfl := Except.ok.inj h
    exact ⟨.failed .emptyScript, rfl⟩
  · exact exists_ending_run h

/-- A script leaves the arm away from home unless its run was completed. -/
theorem leftAway_runSource {source : List Char} (h : (runSource st d source s).1 = .ok report) :
    report.leftAway = (report.state != .completed) := by
  obtain ⟨ending, hending⟩ := exists_ending_runSource h
  exact Report.leftAway_of_ending? hending

end Scene

end BlockArm
