/-
# Traces of calls

A logged device answers as the device inside it does and keeps every call with its answer.  From
such a trace it can be told where the arm was driven to, whatever the device.

* `Device.logged`: the device that keeps its calls;
* `Trace.pose`, `Trace.driven`: where the arm is, and all the points it was driven to;
* `Logged.Extends`: more calls were made, none of them of a certain kind.
-/
import BlockArm.Arm.Plan

namespace BlockArm

variable {σ : Type}

/-! ## Where calls lead -/

namespace Call

/-- Where a call leads the arm from a point. -/
def lead : Call → Pose → Pose
  | .moveXY x y, p => { p with x, y }
  | .moveZ z, p => { p with z }
  | .reset, _ => .zero
  | .setWrist _, p | .pump _, p => p

/-- Whether a call drives the arm to a point of its own choice. -/
def isDrive : Call → Bool
  | .moveXY _ _ | .moveZ _ => true
  | .setWrist _ | .pump _ | .reset => false

/-- Whether a call leaves the arm where it is. -/
def isStill : Call → Bool
  | .setWrist _ | .pump _ => true
  | .moveXY _ _ | .moveZ _ | .reset => false

/-- Whether a call is for a reset. -/
def isReset : Call → Bool
  | .reset => true
  | .moveXY _ _ | .moveZ _ | .setWrist _ | .pump _ => false

theorem lead_of_still {c : Call} (h : c.isStill = true) (p : Pose) : c.lead p = p := by
  cases c <;> first | rfl | exact absurd h Bool.false_ne_true

theorem not_drive_of_still {c : Call} (h : c.isStill = true) : c.isDrive = false := by
  cases c <;> first | rfl | exact absurd h Bool.false_ne_true

end Call

/-- Calls with their answers, the latest first. -/
abbrev Trace := List (Call × Answer)

namespace Trace

/-- Where the arm is after the calls, from a starting point.  Only calls that were done count. -/
def pose (start : Pose) : Trace → Pose
  | [] => start
  | (c, .done) :: t => c.lead (pose start t)
  | (_, .failed _) :: t | (_, .crashed) :: t => pose start t

/-- The points that the arm was driven to, the latest first. -/
def driven (start : Pose) : Trace → List Pose
  | [] => []
  | (c, .done) :: t =>
    if c.isDrive then c.lead (pose start t) :: driven start t else driven start t
  | (_, .failed _) :: t | (_, .crashed) :: t => driven start t

variable {start : Pose} {t : Trace}

@[simp] theorem pose_done (c : Call) : pose start ((c, .done) :: t) = c.lead (pose start t) := rfl

/-- A call that is not done drives the arm nowhere. -/
theorem driven_of_ne_done {c : Call} {a : Answer} (h : a ≠ .done) :
    driven start ((c, a) :: t) = driven start t := by
  cases a with
  | done => exact absurd rfl h
  | failed message => rfl
  | crashed => rfl

/-- Only the wrist, the pump and a reset leave the points as they are. -/
theorem driven_of_not_drive {c : Call} {a : Answer} (h : c.isDrive = false) :
    driven start ((c, a) :: t) = driven start t := by
  cases a with
  | done => exact if_neg (h ▸ Bool.false_ne_true)
  | failed message => rfl
  | crashed => rfl

/-- A drive that is done adds the point it leads to. -/
theorem driven_of_drive {c : Call} (h : c.isDrive = true) :
    driven start ((c, .done) :: t) = c.lead (pose start t) :: driven start t := if_pos h

/-- Points that the arm was driven to stay such points. -/
theorem mem_driven_append {p : Pose} (later : Trace) (h : p ∈ driven start t) :
    p ∈ driven start (later ++ t) := by
  induction later with
  | nil => exact h
  | cons entry later ih =>
    obtain ⟨c, a⟩ := entry
    rw [List.cons_append]
    by_cases ha : a = .done
    · subst ha
      by_cases hdrive : c.isDrive = true
      · rw [driven_of_drive hdrive]
        exact List.mem_cons_of_mem _ ih
      · rw [driven_of_not_drive (Bool.eq_false_iff.mpr hdrive)]
        exact ih
    · rw [driven_of_ne_done ha]
      exact ih

end Trace

/-! ## Logged devices -/

/-- The state of a device, and the trace of its calls. -/
structure Logged (σ : Type) where
  device : σ
  trace : Trace := []

/-- More calls were made, but no bad ones. -/
def Logged.Extends (bad : Call → Bool) (w w' : Logged σ) : Prop :=
  ∃ later : Trace, w'.trace = later ++ w.trace ∧ ∀ entry ∈ later, bad entry.1 = false

theorem Logged.Extends.refl (bad : Call → Bool) (w : Logged σ) : w.Extends bad w :=
  ⟨[], rfl, fun _ h => absurd h List.not_mem_nil⟩

theorem Logged.Extends.trans {bad : Call → Bool} {w w' w'' : Logged σ} (h : w.Extends bad w')
    (h' : w'.Extends bad w'') : w.Extends bad w'' := by
  obtain ⟨later, htrace, hlater⟩ := h
  obtain ⟨later', htrace', hlater'⟩ := h'
  refine ⟨later' ++ later, ?_, ?_⟩
  · rw [htrace', htrace, List.append_assoc]
  · intro entry hentry
    rcases List.mem_append.mp hentry with hentry | hentry
    · exact hlater' entry hentry
    · exact hlater entry hentry

/-- One more call that is not bad. -/
theorem Logged.Extends.call {bad : Call → Bool} {w w' : Logged σ} {c : Call} {a : Answer}
    (h : w.Extends bad w') (hc : bad c = false) (device : σ) :
    w.Extends bad ⟨device, (c, a) :: w'.trace⟩ := by
  refine h.trans ⟨[(c, a)], rfl, ?_⟩
  intro entry hentry
  obtain rfl := List.mem_singleton.mp hentry
  exact hc

/-- The device that answers as `d` does and keeps the calls. -/
def Device.logged (d : Device σ) : Device (Logged σ) where
  perform c s :=
    let (reply, device) := d.perform c s.device
    (reply, ⟨device, (c, reply.answer) :: s.trace⟩)
  pose s := d.pose s.device

@[simp] theorem Device.answer_logged (d : Device σ) (c : Call) (s : Logged σ) :
    (d.logged.perform c s).1 = (d.perform c s.device).1 := rfl

@[simp] theorem Device.state_logged (d : Device σ) (c : Call) (s : Logged σ) :
    (d.logged.perform c s).2 =
      ⟨(d.perform c s.device).2, (c, (d.perform c s.device).1.answer) :: s.trace⟩ := rfl

end BlockArm
