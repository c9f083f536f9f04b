/-
# A logic of plans

An assertion speaks of the state of the device and of what is believed about the arm.  What a plan
ensures is computed from the plan alone, step by step; carrying the plan out bears it out.

* `Plan.Ensures`: what holds after a plan, whether it ends with a value or not;
* `Plan.ensures_bind`: a continuation takes up what was ensured before it;
* `Plan.ensures_exec`: executions bear out what plans ensure;
* `Plan.exists_value_of_ensures`: a plan that ensures a value has one;
* `Plan.Avoids`: calls that a plan does not make, and that no execution adds to a trace.
-/
import BlockArm.Proofs.Arm.Trace

namespace BlockArm

variable {σ α β : Type}

/-! ## Plans -/

namespace Plan

/-- The plan ends with a value of which `Q` holds, or without one and then `E` holds. -/
def Ensures (d : Device σ) (Q : α → σ → ArmState → Prop) (E : σ → ArmState → Prop) :
    Plan α → σ → ArmState → Prop
  | done a, s, arm => Q a s arm
  | fail _, s, arm => E s arm
  | broken _, s, arm => E s arm
  | call c next, s, arm => match (d.perform c s).1.answer with
    | .done => (next ()).Ensures d Q E (d.perform c s).2 arm
    | .failed _ | .crashed => E (d.perform c s).2 arm
  | locate next, s, arm => match d.pose s with
    | .ok pose => (next pose).Ensures d Q E s arm
    | .error _ => E s arm
  | believe arm next, s, _ => next.Ensures d Q E s arm
  | note _ _ next, s, arm => next.Ensures d Q E s arm
  | warn _ next, s, arm => next.Ensures d Q E s arm

variable {d : Device σ} {Q R : α → σ → ArmState → Prop} {E F : σ → ArmState → Prop}
  {s : σ} {arm : ArmState}

/-- A plan with a continuation ensures what its first part ensures about the continuation. -/
@[simp] theorem ensures_bind (p : Plan α) (f : α → Plan β) {Q : β → σ → ArmState → Prop} :
    (p.bind f).Ensures d Q E = p.Ensures d (fun a => (f a).Ensures d Q E) E := by
  funext s arm
  induction p generalizing s arm with
  | done a => rfl
  | fail fault => rfl
  | broken b => rfl
  | call c next ih => simp only [Plan.bind, Ensures, ih]
  | locate next ih => simp only [Plan.bind, Ensures, ih]
  | believe arm' next ih => exact ih s arm'
  | note level text next ih => exact ih s arm
  | warn warning next ih => exact ih s arm

@[simp] theorem ensures_done (a : α) : (done a).Ensures d Q E = Q a := rfl

@[simp] theorem ensures_assume {Q : Unit → σ → ArmState → Prop} (arm : ArmState) :
    (assume arm).Ensures d Q E = fun s _ => Q () s arm := rfl

@[simp] theorem ensures_say {Q : Unit → σ → ArmState → Prop} (level : Level) (text : String) :
    (say level text).Ensures d Q E = Q () := rfl

/-- A warning changes nothing that assertions speak of. -/
@[simp] theorem ensures_warnOf {Q : Unit → σ → ArmState → Prop} (setting : WristSetting Float) :
    (warnOf setting).Ensures d Q E = Q () := by
  unfold warnOf
  split <;> rfl

/-- A number that its type does not hold breaks the plan off where the arm is. -/
theorem ensures_checked {o : Option α} (hQ : ∀ a, o = some a → Q a s arm) (hE : E s arm) :
    (checked o).Ensures d Q E s arm := by
  cases o with
  | none => exact hE
  | some a => exact hQ a rfl

/-- A call ensures what holds of every state of the device. -/
theorem ensures_act {Q : Unit → σ → ArmState → Prop} {c : Call} (hQ : ∀ s, Q () s arm)
    (hE : ∀ s, E s arm) : (act c).Ensures d Q E s arm := by
  simp only [act, Ensures]
  split
  · exact hQ _
  · exact hE _
  · exact hE _

/-- A call to a logged device ensures what holds after each answer. -/
theorem ensures_act_logged {d : Device σ} {Q : Unit → Logged σ → ArmState → Prop}
    {E : Logged σ → ArmState → Prop} {c : Call} {w : Logged σ} {arm : ArmState}
    (hdone : ∀ device, Q () ⟨device, (c, .done) :: w.trace⟩ arm)
    (hother : ∀ device answer, answer ≠ .done → E ⟨device, (c, answer) :: w.trace⟩ arm) :
    (act c).Ensures d.logged Q E w arm := by
  simp only [act, Ensures, Device.answer_logged, Device.state_logged]
  cases (d.perform c w.device).1.answer with
  | done => exact hdone _
  | failed message => exact hother _ _ (by simp)
  | crashed => exact hother _ _ (by simp)

/-- What always holds is ensured by every plan. -/
theorem ensures_of_forall (hQ : ∀ a s arm, Q a s arm) (hE : ∀ s arm, E s arm) (p : Plan α) :
    ∀ s arm, p.Ensures d Q E s arm := by
  induction p with
  | done a => exact hQ a
  | fail fault => exact hE
  | broken b => exact hE
  | call c next ih =>
    intro s arm
    unfold Ensures
    split
    · exact ih () _ arm
    · exact hE _ arm
    · exact hE _ arm
  | locate next ih =>
    intro s arm
    unfold Ensures
    split
    · exact ih _ s arm
    · exact hE s arm
  | believe arm next ih => exact fun s _ => ih s arm
  | note level text next ih => exact ih
  | warn warning next ih => exact ih

/-- What a plan ensures can be weakened. -/
theorem Ensures.mono {p : Plan α} (h : p.Ensures d Q E s arm)
    (hQ : ∀ a s arm, Q a s arm → R a s arm)
    (hE : ∀ s arm, E s arm → F s arm) : p.Ensures d R F s arm := by
  induction p generalizing s arm with
  | done a => exact hQ a s arm h
  | fail fault => exact hE s arm h
  | broken b => exact hE s arm h
  | call c next ih =>
    simp only [Ensures] at h ⊢
    cases hanswer : (d.perform c s).1.answer <;> rw [hanswer] at h
    case done => exact ih () h
    case failed => exact hE _ arm h
    case crashed => exact hE _ arm h
  | locate next ih =>
    simp only [Ensures] at h ⊢
    cases hpose : d.pose s <;> rw [hpose] at h
    case ok pose => exact ih pose h
    case error => exact hE s arm h
  | believe arm next ih => exact ih h
  | note level text next ih => exact ih h
  | warn warning next ih => exact ih h

/-! ### Calls that a plan does not make -/

/-- The plan makes no bad call, whatever it is answered. -/
def Avoids (bad : Call → Bool) : Plan α → Prop
  | done _ | fail _ | broken _ => True
  | call c next => bad c = false ∧ (next ()).Avoids bad
  | locate next => ∀ pose, (next pose).Avoids bad
  | believe _ next | note _ _ next | warn _ next => next.Avoids bad

variable {bad : Call → Bool}

theorem Avoids.bind {p : Plan α} {f : α → Plan β} (hp : p.Avoids bad)
    (hf : ∀ a, (f a).Avoids bad) : (p.bind f).Avoids bad := by
  induction p with
  | done a => exact hf a
  | fail fault => trivial
  | broken b => trivial
  | call c next ih => exact ⟨hp.1, ih () hp.2⟩
  | locate next ih => exact fun pose => ih pose (hp pose)
  | believe arm next ih => exact ih hp
  | note level text next ih => exact ih hp
  | warn warning next ih => exact ih hp

theorem avoids_act {c : Call} (h : bad c = false) : (act c).Avoids bad := ⟨h, trivial⟩

theorem avoids_ofExcept (e : Except Fault α) : (ofExcept e).Avoids bad := by
  cases e <;> trivial

theorem avoids_checked (o : Option α) : (checked o).Avoids bad := by
  cases o <;> trivial

theorem avoids_warnOf (setting : WristSetting Float) : (warnOf setting).Avoids bad := by
  unfold warnOf
  split <;> trivial

/-- No plan makes a call when all calls count as good. -/
theorem avoids_nothing (p : Plan α) : p.Avoids fun _ => false := by
  induction p with
  | done a => trivial
  | fail fault => trivial
  | broken b => trivial
  | call c next ih => exact ⟨rfl, ih ()⟩
  | locate next ih => exact ih
  | believe arm next ih => exact ih
  | note level text next ih => exact ih
  | warn warning next ih => exact ih

/-- A plan that avoids bad calls adds none to the trace. -/
theorem Avoids.ensures_extends {p : Plan α} (h : p.Avoids bad) (d : Device σ) {w : Logged σ} :
    ∀ {w' : Logged σ} (arm : ArmState), w.Extends bad w' →
      p.Ensures d.logged (fun _ w' _ => w.Extends bad w') (fun w' _ => w.Extends bad w') w'
        arm := by
  induction p with
  | done a => exact fun arm hw => hw
  | fail fault => exact fun arm hw => hw
  | broken b => exact fun arm hw => hw
  | call c next ih =>
    intro w' arm hw
    refine (show ((act c).bind next).Ensures _ _ _ _ _ from ?_)
    rw [ensures_bind]
    -- the call is added to the trace whatever its answer
    refine ensures_act_logged ?_ ?_
    · exact fun device => ih () h.2 arm (hw.call h.1 device)
    · exact fun device answer _ => hw.call h.1 device
  | locate next ih =>
    intro w' arm hw
    unfold Ensures
    split
    · exact ih _ (h _) arm hw
    · exact hw
  | believe arm' next ih => exact fun arm hw => ih h arm' hw
  | note level text next ih => exact fun arm hw => ih h arm hw
  | warn warning next ih => exact fun arm hw => ih h arm hw

end Plan

/-- What was ensured holds of an outcome and the rig that it was reached on. -/
def Outcome.Meets (Q : α → σ → ArmState → Prop) (E : σ → ArmState → Prop) (r : Rig σ) :
    Outcome α → Prop
  | .value a => Q a r.device r.arm
  | .fault _ | .broken _ => E r.device r.arm

namespace Rig

@[simp] theorem device_say (r : Rig σ) (level : Level) (text : String) :
    (r.say level text).device = r.device := by
  unfold say
  split <;> rfl

@[simp] theorem arm_say (r : Rig σ) (level : Level) (text : String) :
    (r.say level text).arm = r.arm := by
  unfold say
  split <;> rfl

@[simp] theorem stop_say (r : Rig σ) (level : Level) (text : String) :
    (r.say level text).stop = r.stop := by
  unfold say
  split <;> rfl

@[simp] theorem warnings_say (r : Rig σ) (level : Level) (text : String) :
    (r.say level text).warnings = r.warnings := by
  unfold say
  split <;> rfl

@[simp] theorem device_warn (r : Rig σ) (warning : WristWarning) :
    (r.warn warning).device = r.device := r.device_say .warn warning.message

@[simp] theorem arm_warn (r : Rig σ) (warning : WristWarning) :
    (r.warn warning).arm = r.arm := r.arm_say .warn warning.message

end Rig

/-- What a plan ensures holds after every execution. -/
theorem Plan.ensures_exec {d : Device σ} {Q : α → σ → ArmState → Prop} {E : σ → ArmState → Prop}
    {p : Plan α} {r : Rig σ} (h : p.Ensures d Q E r.device r.arm) :
    (p.exec d r).1.Meets Q E (p.exec d r).2 := by
  induction p generalizing r with
  | done a => exact h
  | fail fault => exact h
  | broken b => exact h
  | call c next ih =>
    simp only [Ensures] at h
    simp only [exec, Rig.ask_fst]
    cases hanswer : (d.perform c r.device).1.answer <;> rw [hanswer] at h
    case done => exact ih () h
    case failed => exact h
    case crashed => exact h
  | locate next ih =>
    simp only [Ensures] at h
    simp only [exec]
    cases hpose : d.pose r.device <;> rw [hpose] at h
    case ok pose => exact ih pose h
    case error => exact h
  | believe arm next ih => exact ih h
  | note level text next ih =>
    refine ih ?_
    rw [r.device_say, r.arm_say]
    exact h
  | warn warning next ih =>
    refine ih ?_
    rw [r.device_warn, r.arm_warn]
    exact h

/-- A plan that ensures a value has one. -/
theorem Plan.exists_value_of_ensures {d : Device σ} {Q : α → σ → ArmState → Prop} {p : Plan α}
    {r : Rig σ} (h : p.Ensures d Q (fun _ _ => False) r.device r.arm) :
    ∃ a r', p.exec d r = (.value a, r') ∧ Q a r'.device r'.arm := by
  have hmeets := ensures_exec h
  rcases hexec : p.exec d r with ⟨outcome, r'⟩
  rw [hexec] at hmeets
  cases outcome with
  | value a => exact ⟨a, r', rfl, hmeets⟩
  | fault fault => exact False.elim hmeets
  | broken b => exact False.elim hmeets

end BlockArm
