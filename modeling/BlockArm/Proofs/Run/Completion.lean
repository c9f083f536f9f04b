/-
# Runs that get through

A run that is reported as completed has carried all its statements out and has parked the arm.  What
each statement makes of a value that is kept beside the run, such as the state of the pump, all of
them make of it in order.

* `Scene.performAll_foldl`: statements one after the other;
* `Scene.run_completed`: what a completed run has done;
* `Scene.runSource_foldl`: what holds after it, from what statements and parking do.
-/
import BlockArm.Proofs.Run.Logic

namespace BlockArm

variable {σ γ : Type}

/-- The statements of a script that reads, and none of one that does not. -/
def Script.program (source : List Char) : Program := (parse source).toOption.getD []

namespace Scene

variable {st : Station} {d : Device σ} {program : Program} {s : Scene σ} {report : Report}
  {f : γ → Statement → γ} {I J : γ → σ → ArmState → Prop}

/-- What each statement makes of a value, all of them make of it in order. -/
theorem performAll_foldl
    (hstep : ∀ value statement device arm, I value device arm →
      (st.plan arm statement).Ensures d (fun _ => I (f value statement)) (fun _ _ => True) device
        arm)
    (program : Program) :
    ∀ {n m : Nat} {value : γ} {s t : Scene σ}, I value s.rig.device s.rig.arm →
      performAll st d n program s = (⟨.value true, m⟩, t) →
      I (program.foldl f value) t.rig.device t.rig.arm := by
  induction program with
  | nil =>
    intro n m value s t h hall
    obtain ⟨-, rfl⟩ := Prod.mk.inj hall
    exact h
  | cons statement rest ih =>
    intro n m value s t h hall
    have hperform := meets_perform (hstep value statement _ _ h) fun _ _ _ => trivial
    rw [performAll] at hall
    split at hall
    · simp at hall
    · rcases happly : perform st d statement s with ⟨outcome, after⟩
      rw [happly] at hall hperform
      -- a statement that is not carried out ends the run
      cases outcome with
      | value u => exact ih hperform hall
      | fault fault => simp at hall
      | broken b => simp at hall

/-- A run that ends as completed has parked the arm. -/
theorem conclude_completed {told : Report} (h : (conclude st d told s).1 = .ok report)
    (hcompleted : report.leftAway = false) :
    ∃ rig, st.park.exec d s.rig = (.value (), rig) ∧
      (conclude st d told s).2.rig.device = rig.device ∧
      (conclude st d told s).2.rig.arm = rig.arm := by
  unfold conclude at h ⊢
  rcases hpark : st.park.exec d s.rig with ⟨outcome, rig⟩
  rw [hpark] at h
  cases outcome with
  | broken b => simp at h
  | fault fault =>
    obtain rfl := Except.ok.inj h
    exact absurd hcompleted.symm Bool.false_ne_true
  | value u =>
    refine ⟨rig, rfl, ?_, ?_⟩
    · simp only [finish, say, Rig.device_say]
    · simp only [finish, say, Rig.arm_say]

/-- A completed run has carried its statements out and has parked the arm. -/
theorem run_completed (h : (run st d program s).1 = .ok report)
    (hcompleted : report.leftAway = false) :
    ∃ n t rig, performAll st d 0 program (s.begin program) = (⟨.value true, n⟩, t) ∧
      st.park.exec d t.rig = (.value (), rig) ∧
      (run st d program s).2.rig.device = rig.device ∧
      (run st d program s).2.rig.arm = rig.arm := by
  unfold run at h ⊢
  rcases hall : performAll st d 0 program (s.begin program) with ⟨⟨outcome, n⟩, t⟩
  rw [hall] at h
  cases outcome with
  | broken b => simp at h
  | fault fault =>
    obtain rfl := Except.ok.inj h
    exact absurd hcompleted.symm Bool.false_ne_true
  | value all =>
    cases all with
    | false =>
      obtain rfl := Except.ok.inj h
      exact absurd hcompleted.symm Bool.false_ne_true
    | true =>
      obtain ⟨rig, hrig⟩ := conclude_completed h hcompleted
      exact ⟨n, t, rig, rfl, hrig⟩

/-- What statements and parking do holds after a completed run. -/
theorem run_foldl
    (hstep : ∀ value statement device arm, I value device arm →
      (st.plan arm statement).Ensures d (fun _ => I (f value statement)) (fun _ _ => True) device
        arm)
    (hpark : ∀ value device arm, I value device arm →
      st.park.Ensures d (fun _ => J value) (fun _ _ => True) device arm)
    {value : γ} (hs : I value s.rig.device s.rig.arm) (h : (run st d program s).1 = .ok report)
    (hcompleted : report.leftAway = false) :
    J (program.foldl f value) (run st d program s).2.rig.device
      (run st d program s).2.rig.arm := by
  obtain ⟨n, t, rig, hall, hexec, hdevice, harm⟩ := run_completed h hcompleted
  obtain ⟨hbegin, hbegin'⟩ := s.begin_rig program
  have ht := performAll_foldl hstep program (hbegin ▸ hbegin' ▸ hs) hall
  have hmeets := Plan.ensures_exec (hpark _ _ _ ht)
  rw [hexec] at hmeets
  rw [hdevice, harm]
  exact hmeets

/-- So it does after the completed run of a script. -/
theorem runSource_foldl
    (hstep : ∀ value statement device arm, I value device arm →
      (st.plan arm statement).Ensures d (fun _ => I (f value statement)) (fun _ _ => True) device
        arm)
    (hpark : ∀ value device arm, I value device arm →
      st.park.Ensures d (fun _ => J value) (fun _ _ => True) device arm)
    {source : List Char} {value : γ} (hs : I value s.rig.device s.rig.arm)
    (h : (runSource st d source s).1 = .ok report) (hcompleted : report.leftAway = false) :
    J ((Script.program source).foldl f value) (runSource st d source s).2.rig.device
      (runSource st d source s).2.rig.arm := by
  have hreject : ∀ fault, (reject fault s).1 ≠ .ok report := by
    rintro fault hfault
    obtain rfl := Except.ok.inj hfault
    exact absurd hcompleted.symm Bool.false_ne_true
  unfold runSource at h ⊢
  split at h
  · exact absurd h (hreject _)
  · exact absurd h (hreject _)
  · next program hne hparse =>
    rw [Script.program, hparse]
    exact run_foldl hstep hpark hs h hcompleted

end Scene

end BlockArm
