/-
# Plans

What the arm is to do is written down first, as a `Plan`, and carried out on a `Rig` afterwards.  A
plan is a tree of single steps: a call, a look at the reported pose, a new belief about the arm, a
message, a warning.  A failing call ends the plan with a fault.  A crash breaks it off, and so does
what cannot be gone on with: a number that its type does not hold, steps without an end.

* `Plan.exec` carries a plan out to its end.
* `Plan.step` takes one step of it, for a plan that is carried out beside something else; `exec` is
  what repeated steps come to (`exec_step`).
-/
import BlockArm.Arm.Device
import BlockArm.Log

namespace BlockArm

/-! ## Plans -/

/-- What is believed about the arm. -/
structure ArmState where
  /-- The grid cell and the grid height. -/
  cell : Cell
  /-- The same place in the frame of the arm. -/
  pose : Pose
  /-- The angle of the wrist servo. -/
  wrist : Float

/-- Why a plan did not come to an end. -/
inductive Breakdown where
  /-- A call crashed. -/
  | crashed
  /-- The steps would go on for ever. -/
  | endless
  /-- A number left the range of its type. -/
  | overflow
  deriving DecidableEq, Repr

/-- Steps to take, ending in a value or a fault, or broken off. -/
inductive Plan (α : Type) where
  | done (value : α)
  | fail (fault : Fault)
  | broken (b : Breakdown)
  /-- Have the arm carry out a call. -/
  | call (c : Call) (next : Unit → Plan α)
  /-- Ask where the arm is. -/
  | locate (next : Pose → Plan α)
  /-- Take down where the arm is now believed to be. -/
  | believe (arm : ArmState) (next : Plan α)
  /-- Log a message. -/
  | note (level : Level) (text : String) (next : Plan α)
  /-- Report a warning. -/
  | warn (warning : WristWarning) (next : Plan α)

namespace Plan

variable {α β : Type}

/-- First one plan, then the plan that its value asks for. -/
protected def bind : Plan α → (α → Plan β) → Plan β
  | done a, f => f a
  | fail fault, _ => fail fault
  | broken b, _ => broken b
  | call c next, f => call c fun u => (next u).bind f
  | locate next, f => locate fun p => (next p).bind f
  | believe arm next, f => believe arm (next.bind f)
  | note level text next, f => note level text (next.bind f)
  | warn warning next, f => warn warning (next.bind f)

instance : Monad Plan where
  pure := done
  bind := Plan.bind

@[simp] theorem pure_eq (a : α) : (pure a : Plan α) = done a := rfl

@[simp] theorem bind_eq (p : Plan α) (f : α → Plan β) : p >>= f = p.bind f := rfl

@[simp] theorem done_bind (a : α) (f : α → Plan β) : (done a).bind f = f a := rfl

/-- A plan that only ends is no continuation. -/
@[simp] theorem bind_done (p : Plan α) : p.bind done = p := by
  induction p with
  | done a => rfl
  | fail fault => rfl
  | broken b => rfl
  | call c next ih => exact congrArg (call c) (funext ih)
  | locate next ih => exact congrArg locate (funext ih)
  | believe arm next ih => exact congrArg (believe arm) ih
  | note level text next ih => exact congrArg (note level text) ih
  | warn warning next ih => exact congrArg (warn warning) ih

/-- Continuations can be grouped. -/
theorem bind_assoc {γ : Type} (p : Plan α) (f : α → Plan β) (g : β → Plan γ) :
    (p.bind f).bind g = p.bind fun a => (f a).bind g := by
  induction p with
  | done a => rfl
  | fail fault => rfl
  | broken b => rfl
  | call c next ih => exact congrArg (call c) (funext ih)
  | locate next ih => exact congrArg locate (funext ih)
  | believe arm next ih => exact congrArg (believe arm) ih
  | note level text next ih => exact congrArg (note level text) ih
  | warn warning next ih => exact congrArg (warn warning) ih

/-- A single call. -/
def act (c : Call) : Plan Unit := call c fun _ => done ()

/-- A single message. -/
def say (level : Level) (text : String) : Plan Unit := note level text (done ())

/-- A new belief. -/
def assume (arm : ArmState) : Plan Unit := believe arm (done ())

/-- A value that was computed, or the fault that came instead. -/
def ofExcept : Except Fault α → Plan α
  | .ok a => done a
  | .error fault => fail fault

/-- A number that was computed, if its type holds it. -/
def checked : Option α → Plan α
  | some a => done a
  | none => broken .overflow

/-- The warning of a wrist setting that left the range. -/
def warnOf (setting : WristSetting Float) : Plan Unit := match setting.warning? with
  | some warning => warn warning (done ())
  | none => done ()

end Plan

/-! ## Rigs -/

/-- The life cycle of a run. -/
inductive RunState where
  | idle
  | running
  | completed
  | aborted
  | failed
  deriving DecidableEq, Repr

/-- Whether a run has ended, for better or worse. -/
def RunState.isTerminal : RunState → Bool
  | idle | running => false
  | completed | aborted | failed => true

/-- A device and all that is kept about it from step to step. -/
structure Rig (σ : Type) where
  device : σ
  /-- Whether a stop was asked for. -/
  stop : Bool := false
  /-- Where the arm is believed to be. -/
  arm : ArmState
  /-- The state of the last run. -/
  state : RunState := .idle
  verbosity : Verbosity
  /-- The messages kept so far, the oldest first. -/
  log : Array LogLine := #[]
  /-- The warnings of the last run, the oldest first. -/
  warnings : Array WristWarning := #[]

/-- The rig with one more message, if its verbosity keeps it. -/
def Rig.say {σ : Type} (r : Rig σ) (level : Level) (text : String) : Rig σ :=
  if r.verbosity.keeps level then { r with log := r.log.push ⟨level, text⟩ } else r

/-- The rig with one more warning, which is logged as well. -/
def Rig.warn {σ : Type} (r : Rig σ) (warning : WristWarning) : Rig σ :=
  let r := r.say .warn warning.message
  { r with warnings := r.warnings.push warning }

/-- Has the device answer a call, and takes down whether a stop was asked for. -/
def Rig.ask {σ : Type} (d : Device σ) (c : Call) : Rig σ → Reply × Rig σ
  | ⟨device, stop, arm, state, verbosity, log, warnings⟩ =>
    let (reply, device) := d.perform c device
    (reply, ⟨device, stop || reply.stop, arm, state, verbosity, log, warnings⟩)

/-- The answer is the device's own. -/
@[simp] theorem Rig.ask_fst {σ : Type} (d : Device σ) (c : Call) (r : Rig σ) :
    (r.ask d c).1 = (d.perform c r.device).1 := rfl

/-- Only the device and the stop request change. -/
@[simp] theorem Rig.ask_snd {σ : Type} (d : Device σ) (c : Call) (r : Rig σ) :
    (r.ask d c).2 = { r with
      device := (d.perform c r.device).2
      stop := r.stop || (d.perform c r.device).1.stop } := rfl

/-! ## Carrying plans out -/

/-- How a plan ends. -/
inductive Outcome (α : Type) where
  | value (a : α)
  | fault (f : Fault)
  | broken (b : Breakdown)

namespace Plan

variable {α σ : Type}

/-- Either the rest of a plan or its outcome. -/
inductive Rest (α : Type) where
  | plan (p : Plan α)
  | over (o : Outcome α)

/-- The rest of a plan after a call was answered. -/
def afterCall (next : Unit → Plan α) : Answer → Rest α
  | .done => .plan (next ())
  | .failed message => .over (.fault (.device message))
  | .crashed => .over (.broken .crashed)

/-- The rest of a plan after the arm told where it is. -/
def afterLocate (next : Pose → Plan α) : Except String Pose → Rest α
  | .ok pose => .plan (next pose)
  | .error message => .over (.fault (.device message))

/-- Takes one step of a plan. -/
def step (d : Device σ) : Plan α → Rig σ → Rest α × Rig σ
  | done a, r => (.over (.value a), r)
  | fail fault, r => (.over (.fault fault), r)
  | broken b, r => (.over (.broken b), r)
  | call c next, r =>
    let (reply, r) := r.ask d c
    (afterCall next reply.answer, r)
  | locate next, r => (afterLocate next (d.pose r.device), r)
  | believe arm next, r => (.plan next, { r with arm })
  | note level text next, r => (.plan next, r.say level text)
  | warn warning next, r => (.plan next, r.warn warning)

/-- Carries a plan out to its end. -/
def exec (d : Device σ) : Plan α → Rig σ → Outcome α × Rig σ
  | done a, r => (.value a, r)
  | fail fault, r => (.fault fault, r)
  | broken b, r => (.broken b, r)
  | call c next, r =>
    let (reply, r) := r.ask d c
    match reply.answer with
    | .done => (next ()).exec d r
    | .failed message => (.fault (.device message), r)
    | .crashed => (.broken .crashed, r)
  | locate next, r => match d.pose r.device with
    | .ok pose => (next pose).exec d r
    | .error message => (.fault (.device message), r)
  | believe arm next, r => next.exec d { r with arm }
  | note level text next, r => next.exec d (r.say level text)
  | warn warning next, r => next.exec d (r.warn warning)

/-- Carries out what is left of a plan. -/
def Rest.exec (d : Device σ) : Rest α → Rig σ → Outcome α × Rig σ
  | .plan p, r => p.exec d r
  | .over o, r => (o, r)

/-- A plan does what its first step and the rest of it do. -/
theorem exec_step (d : Device σ) (p : Plan α) (r : Rig σ) :
    (p.step d r).1.exec d (p.step d r).2 = p.exec d r := by
  cases p with
  | call c next =>
    simp only [step, exec]
    cases (r.ask d c).1.answer <;> rfl
  | locate next =>
    simp only [step, exec]
    cases d.pose r.device <;> rfl
  | _ => rfl

end Plan

end BlockArm
