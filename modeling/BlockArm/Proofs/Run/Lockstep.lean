/-
# Runs in lockstep

What a plan does on a rig depends on the device, on the stop request and on the belief about the
arm.  The log, the warnings and the state of the last run are only written.  Two rigs that agree in
the first three therefore stay in agreement, and so do two scenes with the same world.

* `Rig.Agrees`, `Scene.Agrees`: agreement in all that decides what happens;
* `Plan.exec_congr`, `Plan.exec_agrees`: a plan ends in the same way on rigs that agree;
* `Scene.perform_agrees`: so does a statement in scenes that agree;
* `Plan.stop_exec`: no plan asks for a stop, unless it is asked for during a call.
-/
import BlockArm.Proofs.Run.Simulation

namespace BlockArm

variable {σ α : Type}

/-! ## Plans -/

namespace Rig

/-- Two rigs agree in all that decides what the arm does. -/
structure Agrees (r r' : Rig σ) : Prop where
  device : r.device = r'.device
  stop : r.stop = r'.stop
  arm : r.arm = r'.arm

theorem Agrees.refl (r : Rig σ) : r.Agrees r := ⟨rfl, rfl, rfl⟩

theorem Agrees.symm {r r' : Rig σ} (h : r.Agrees r') : r'.Agrees r :=
  ⟨h.device.symm, h.stop.symm, h.arm.symm⟩

theorem Agrees.trans {r r' r'' : Rig σ} (h : r.Agrees r') (h' : r'.Agrees r'') : r.Agrees r'' :=
  ⟨h.device.trans h'.device, h.stop.trans h'.stop, h.arm.trans h'.arm⟩

/-- A message does not count. -/
theorem say_agrees (r : Rig σ) (level : Level) (text : String) : (r.say level text).Agrees r := by
  unfold say
  split
  · exact ⟨rfl, rfl, rfl⟩
  · exact .refl r

/-- A warning does not count. -/
theorem warn_agrees (r : Rig σ) (warning : WristWarning) : (r.warn warning).Agrees r := by
  obtain ⟨hdevice, hstop, harm⟩ := r.say_agrees .warn warning.message
  exact ⟨hdevice, hstop, harm⟩

end Rig

/-- A plan only looks at the device and at the belief.  Whether a stop was asked for meanwhile does
not depend on whether it was before. -/
theorem Plan.exec_congr (d : Device σ) (p : Plan α) {r r' : Rig σ} (hdevice : r.device = r'.device)
    (harm : r.arm = r'.arm) :
    (p.exec d r).1 = (p.exec d r').1 ∧ (p.exec d r).2.device = (p.exec d r').2.device ∧
      (p.exec d r).2.arm = (p.exec d r').2.arm ∧
      ∃ asked, (p.exec d r).2.stop = (r.stop || asked) ∧
        (p.exec d r').2.stop = (r'.stop || asked) := by
  -- each step reads no more than the rigs agree in, and leaves them in agreement
  have hnever : ∀ q : Rig σ, q.stop = (q.stop || false) := fun q => (Bool.or_false q.stop).symm
  induction p generalizing r r' with
  | done a => exact ⟨rfl, hdevice, harm, false, hnever r, hnever r'⟩
  | fail fault => exact ⟨rfl, hdevice, harm, false, hnever r, hnever r'⟩
  | broken b => exact ⟨rfl, hdevice, harm, false, hnever r, hnever r'⟩
  | call c next ih =>
    have hafter : (r.ask d c).2.device = (r'.ask d c).2.device := by
      rw [Rig.ask_snd, Rig.ask_snd, hdevice]
    have hstop : (r.ask d c).2.stop = (r.stop || (d.perform c r'.device).1.stop) := by
      rw [Rig.ask_snd, hdevice]
    simp only [exec, Rig.ask_fst, hdevice]
    cases (d.perform c r'.device).1.answer with
    | done =>
      obtain ⟨houtcome, hdevice', harm', asked, h, h'⟩ := ih () hafter harm
      refine ⟨houtcome, hdevice', harm', (d.perform c r'.device).1.stop || asked, ?_, ?_⟩
      · rw [h, hstop, Bool.or_assoc]
      · rw [h', Rig.ask_snd, Bool.or_assoc]
    | failed message => exact ⟨rfl, hafter, harm, _, hstop, rfl⟩
    | crashed => exact ⟨rfl, hafter, harm, _, hstop, rfl⟩
  | locate next ih =>
    simp only [exec, hdevice]
    cases d.pose r'.device with
    | ok pose => exact ih pose hdevice harm
    | error message => exact ⟨rfl, hdevice, harm, false, hnever r, hnever r'⟩
  | believe arm next ih => exact ih hdevice rfl
  | note level text next ih =>
    have hsay := r.say_agrees level text
    have hsay' := r'.say_agrees level text
    have hih := ih (hsay.device.trans (hdevice.trans hsay'.device.symm))
      (hsay.arm.trans (harm.trans hsay'.arm.symm))
    rw [hsay.stop, hsay'.stop] at hih
    exact hih
  | warn warning next ih =>
    have hwarn := r.warn_agrees warning
    have hwarn' := r'.warn_agrees warning
    have hih := ih (hwarn.device.trans (hdevice.trans hwarn'.device.symm))
      (hwarn.arm.trans (harm.trans hwarn'.arm.symm))
    rw [hwarn.stop, hwarn'.stop] at hih
    exact hih

/-- A plan ends in the same way on rigs that agree, and they agree afterwards. -/
theorem Plan.exec_agrees (d : Device σ) (p : Plan α) {r r' : Rig σ} (h : r.Agrees r') :
    (p.exec d r).1 = (p.exec d r').1 ∧ (p.exec d r).2.Agrees (p.exec d r').2 := by
  obtain ⟨houtcome, hdevice, harm, asked, hstop, hstop'⟩ := p.exec_congr d h.device h.arm
  exact ⟨houtcome, hdevice, by rw [hstop, hstop', h.stop], harm⟩

/-- Nobody asks for a stop while the device does its calls. -/
def Device.Undisturbed (d : Device σ) : Prop := ∀ c s, (d.perform c s).1.stop = false

/-- Where nobody asks for a stop, plans do not either. -/
theorem Plan.stop_exec {d : Device σ} (h : d.Undisturbed) (p : Plan α) (r : Rig σ) :
    (p.exec d r).2.stop = r.stop := by
  induction p generalizing r with
  | done a => rfl
  | fail fault => rfl
  | broken b => rfl
  | call c next ih =>
    have hasked : (r.ask d c).2.stop = r.stop := by
      rw [Rig.ask_snd, h c r.device, Bool.or_false]
    simp only [exec]
    cases (r.ask d c).1.answer with
    | done => exact (ih () _).trans hasked
    | failed message => exact hasked
    | crashed => exact hasked
  | locate next ih =>
    simp only [exec]
    cases d.pose r.device with
    | ok pose => exact ih pose r
    | error message => rfl
  | believe arm next ih => exact ih { r with arm }
  | note level text next ih => exact (ih _).trans (r.say_agrees level text).stop
  | warn warning next ih => exact (ih _).trans (r.warn_agrees warning).stop

/-! ## Statements -/

namespace Scene

/-- Two scenes agree in all that decides what happens in them. -/
structure Agrees (s s' : Scene σ) : Prop where
  rig : s.rig.Agrees s'.rig
  world : s.world = s'.world

theorem Agrees.trans {s s' s'' : Scene σ} (h : s.Agrees s') (h' : s'.Agrees s'') : s.Agrees s'' :=
  ⟨h.rig.trans h'.rig, h.world.trans h'.world⟩

theorem Agrees.symm {s s' : Scene σ} (h : s.Agrees s') : s'.Agrees s := ⟨h.rig.symm, h.world.symm⟩

/-- A message does not count. -/
theorem say_agrees (s : Scene σ) (level : Level) (text : String) : (s.say level text).Agrees s :=
  ⟨s.rig.say_agrees level text, rfl⟩

/-- The beginning of a run does not count, whatever program it announces. -/
theorem begin_agrees (program : Program) (s : Scene σ) : (s.begin program).Agrees s := by
  refine (say_agrees _ _ _).trans ⟨?_, rfl⟩
  exact ⟨rfl, rfl, rfl⟩

/-- A statement ends in the same way in scenes that agree, and they agree afterwards. -/
theorem perform_agrees (st : Station) (d : Device σ) (statement : Statement) {s s' : Scene σ}
    (h : s.Agrees s') : (perform st d statement s).1 = (perform st d statement s').1 ∧
      (perform st d statement s).2.Agrees (perform st d statement s').2 := by
  obtain ⟨houtcome, hrig, hworld⟩ := perform_related (R := Rig.Agrees)
    (fun hr level text => ((Rig.say_agrees _ level text).trans hr).trans
      (Rig.say_agrees _ level text).symm)
    h.rig.arm h.world (Plan.exec_agrees d _ h.rig)
  exact ⟨houtcome, hrig, hworld⟩

end Scene

end BlockArm
