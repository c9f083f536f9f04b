/-
# The conduct of plans

Which calls a plan makes, whether it asks where the arm is, and what it takes down about the arm
can be read off the plan alone.  Whatever the answers are, a plan keeps to what holds of all its
branches.

* `Plan.Keeps`: no bad calls, no beliefs but good ones, and a good value;
* `Plan.Keeps.bind`: a continuation takes up what is known of the value;
* `Plan.Keeps.ensures`: executions on any device bear this out;
* `Plan.exec_bind`: an execution goes on with the continuation where it ends with a value.
-/
import BlockArm.Proofs.Arm.PlanLogic

namespace BlockArm

variable {σ α β : Type}

namespace Plan

/-- Whatever it is answered, the plan asks where the arm is only if `looks` holds, makes no bad
call, takes down only beliefs of which `B` holds and ends, if with a value, with one of which `Q`
holds. -/
def Keeps (looks : Prop) (bad : Call → Bool) (B : ArmState → Prop) (Q : α → Prop) : Plan α → Prop
  | done a => Q a
  | fail _ | broken _ => True
  | call c next => bad c = false ∧ (next ()).Keeps looks bad B Q
  | locate next => looks ∧ ∀ pose, (next pose).Keeps looks bad B Q
  | believe arm next => B arm ∧ next.Keeps looks bad B Q
  | note _ _ next | warn _ next => next.Keeps looks bad B Q

variable {looks : Prop} {bad : Call → Bool} {B : ArmState → Prop} {Q : α → Prop}

/-- A continuation takes up what is known of the value. -/
theorem Keeps.bind {p : Plan α} {f : α → Plan β} {P : α → Prop} {Q : β → Prop}
    (hp : p.Keeps looks bad B P) (hf : ∀ a, P a → (f a).Keeps looks bad B Q) :
    (p.bind f).Keeps looks bad B Q := by
  induction p with
  | done a => exact hf a hp
  | fail fault => trivial
  | broken b => trivial
  | call c next ih => exact ⟨hp.1, ih () hp.2⟩
  | locate next ih => exact ⟨hp.1, fun pose => ih pose (hp.2 pose)⟩
  | believe arm next ih => exact ⟨hp.1, ih hp.2⟩
  | note level text next ih => exact ih hp
  | warn warning next ih => exact ih hp

theorem keeps_act {c : Call} (hc : bad c = false) : (act c).Keeps looks bad B fun _ => True :=
  ⟨hc, trivial⟩

theorem keeps_assume {arm : ArmState} (hB : B arm) :
    (assume arm).Keeps looks bad B fun _ => True :=
  ⟨hB, trivial⟩

theorem keeps_ofExcept {e : Except Fault α} (h : ∀ a, e = .ok a → Q a) :
    (ofExcept e).Keeps looks bad B Q := by
  cases e with
  | error fault => trivial
  | ok a => exact h a rfl

theorem keeps_checked (o : Option α) : (checked o).Keeps looks bad B fun _ => True := by
  cases o <;> trivial

theorem keeps_warnOf (setting : WristSetting Float) :
    (warnOf setting).Keeps looks bad B fun _ => True := by
  unfold warnOf
  split <;> trivial

/-- What good calls keep of the device, and what holds of the beliefs, holds in the end. -/
theorem Keeps.ensures {d : Device σ} {T : σ → Prop} {p : Plan α} (h : p.Keeps looks bad B Q)
    (hT : ∀ c s, bad c = false → T s → T (d.perform c s).2) :
    ∀ {s : σ} {arm : ArmState}, T s → B arm →
      p.Ensures d (fun a s arm => Q a ∧ T s ∧ B arm) (fun s arm => T s ∧ B arm) s arm := by
  induction p with
  | done a => exact fun hs harm => ⟨h, hs, harm⟩
  | fail fault => exact fun hs harm => ⟨hs, harm⟩
  | broken b => exact fun hs harm => ⟨hs, harm⟩
  | call c next ih =>
    intro s arm hs harm
    have hafter := hT c s h.1 hs
    unfold Ensures
    split
    · exact ih () h.2 hafter harm
    · exact ⟨hafter, harm⟩
    · exact ⟨hafter, harm⟩
  | locate next ih =>
    intro s arm hs harm
    unfold Ensures
    split
    · exact ih _ (h.2 _) hs harm
    · exact ⟨hs, harm⟩
  | believe arm next ih => exact fun hs _ => ih h.2 hs h.1
  | note level text next ih => exact fun hs harm => ih h hs harm
  | warn warning next ih => exact fun hs harm => ih h hs harm

theorem Keeps.exec {d : Device σ} {T : σ → Prop} {p : Plan α} {r : Rig σ}
    (h : p.Keeps looks bad B Q)
    (hT : ∀ c s, bad c = false → T s → T (d.perform c s).2) (hs : T r.device) (hB : B r.arm) :
    T (p.exec d r).2.device ∧ B (p.exec d r).2.arm := by
  have hmeets := ensures_exec (h.ensures hT hs hB)
  cases hexec : (p.exec d r).1 with
  | value a =>
    rw [hexec] at hmeets
    exact hmeets.2
  | fault fault =>
    rw [hexec] at hmeets
    exact hmeets
  | broken b =>
    rw [hexec] at hmeets
    exact hmeets

/-! ## Executions in two parts -/

/-- An execution goes on with the continuation where its first part ends with a value. -/
theorem exec_bind (d : Device σ) (p : Plan α) (f : α → Plan β) (r : Rig σ) :
    (p.bind f).exec d r = match p.exec d r with
      | (.value a, r) => (f a).exec d r
      | (.fault fault, r) => (.fault fault, r)
      | (.broken b, r) => (.broken b, r) := by
  induction p generalizing r with
  | done a => rfl
  | fail fault => rfl
  | broken b => rfl
  | call c next ih =>
    simp only [Plan.bind, exec]
    cases (r.ask d c).1.answer with
    | done => exact ih () _
    | failed message => rfl
    | crashed => rfl
  | locate next ih =>
    simp only [Plan.bind, exec]
    cases d.pose r.device with
    | ok pose => exact ih pose r
    | error message => rfl
  | believe arm next ih => exact ih _
  | note level text next ih => exact ih _
  | warn warning next ih => exact ih _

/-- A continuation that only ends leaves the rig as it is. -/
theorem exec_bind_done (d : Device σ) (p : Plan α) (f : α → β) (r : Rig σ) :
    ((p.bind fun a => done (f a)).exec d r).2 = (p.exec d r).2 := by
  rw [exec_bind]
  rcases p.exec d r with ⟨outcome, after⟩
  cases outcome <;> rfl

end Plan

end BlockArm
