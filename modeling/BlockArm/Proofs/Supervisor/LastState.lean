/-
# The state of the last run

The rig keeps the state that its last run has ended in.  Plans do not write it: neither the statements
of a run nor a drive home do.  A run that is reported has written the state of its report, also where
the script was rejected.  A script that does not come to its run is reported as failed, but leaves the
state of the run before it.

* `Plan.state_exec`, `Supervisor.state_advance`: plans and background resets leave the state alone;
* `Supervisor.state_runScript`: which state a script leaves;
* `Session.state_eq_iff`: when this is the state that is reported.
-/
import BlockArm.Proofs.Run.Reports
import BlockArm.Proofs.Supervisor.Independence

namespace BlockArm

variable {σ α : Type} {st : Station} {d : Device σ}

/-! ## Plans -/

@[simp] theorem Rig.state_say (r : Rig σ) (level : Level) (text : String) :
    (r.say level text).state = r.state := by
  unfold say
  split <;> rfl

@[simp] theorem Rig.state_warn (r : Rig σ) (warning : WristWarning) :
    (r.warn warning).state = r.state := r.state_say .warn warning.message

/-- A step of a plan leaves the state of the last run. -/
theorem Plan.state_step (p : Plan α) (r : Rig σ) : (p.step d r).2.state = r.state := by
  cases p with
  | note level text next => exact r.state_say level text
  | warn warning next => exact r.state_warn warning
  | _ => rfl

/-- So does a whole plan. -/
theorem Plan.state_exec (p : Plan α) (r : Rig σ) : (p.exec d r).2.state = r.state := by
  induction p generalizing r with
  | done a => rfl
  | fail fault => rfl
  | broken b => rfl
  | call c next ih =>
    simp only [exec]
    cases (r.ask d c).1.answer with
    | done => exact ih () _
    | failed message => rfl
    | crashed => rfl
  | locate next ih =>
    simp only [exec]
    cases d.pose r.device with
    | ok pose => exact ih pose r
    | error message => rfl
  | believe arm next ih => exact ih _
  | note level text next ih => exact (ih _).trans (r.state_say level text)
  | warn warning next ih => exact (ih _).trans (r.state_warn warning)

/-! ## Supervisors -/

namespace Supervisor

variable {source : List Char} {challenge : Option Challenge} {report : Report}

/-- A background reset leaves the state of the last run at each of its steps. -/
theorem state_advance (s : Supervisor σ) : (s.advance d).rig.state = s.rig.state := by
  obtain ⟨rig, homed, reset⟩ := s
  cases reset with
  | none => rfl
  | finished result => rfl
  | running plan =>
    have hstep := plan.state_step (d := d) rig
    simp only [advance]
    rcases hplan : plan.step d rig with ⟨rest | outcome, after⟩ <;> (rw [hplan] at hstep; exact hstep)

/-- So it does as a whole. -/
theorem state_wait (s : Supervisor σ) : (s.wait d).2.rig.state = s.rig.state := by
  rw [wait_snd]
  obtain ⟨rig, homed, reset⟩ := s
  cases reset with
  | none => rfl
  | finished result => rfl
  | running plan => exact plan.state_exec rig

/-- A script that comes to its run leaves the state that is reported.  Otherwise it is reported as
failed, and leaves the state of the run before it. -/
theorem state_runScript {s : Supervisor σ} (h : (s.runScript st d source challenge).1 = .ok report) :
    if (s.begun? st d challenge).isSome then
      (s.runScript st d source challenge).2.rig.state = report.state
    else
      (s.runScript st d source challenge).2.rig.state = s.rig.state ∧
        report.state = .failed := by
  have hreported : ((s.wait d).2.attempt st d source challenge).1 = .ok report := by
    rw [← h]
    simp only [runScript]
    rcases (s.wait d).2.attempt st d source challenge with ⟨b | report, after⟩ <;> rfl
  rw [rig_runScript]
  rcases attempt_cases st d source challenge s with
    ⟨world, t, hbegun, hattempt⟩ | ⟨hbegun, ⟨fault, hattempt⟩ | ⟨fault, -, hattempt, -⟩ | ⟨b, t, hattempt⟩⟩
  · -- the script is run from where it begins
    rw [hattempt] at hreported ⊢
    simp only [hbegun, Option.isSome_some, if_true]
    unfold runHomed at hreported ⊢
    rcases hrun : Scene.runSource st d source { rig := t.rig, world } with ⟨b | report', scene⟩
    · simp [hrun] at hreported
    · simp only [hrun] at hreported ⊢
      have hstate := (Scene.wellFormed_runSource (congrArg Prod.fst hrun)).state_eq
      rw [hrun] at hstate
      rw [← Except.ok.inj hreported]
      exact hstate
  · rw [hattempt] at hreported ⊢
    obtain rfl := Except.ok.inj hreported
    simp only [hbegun, Option.isSome_none, Bool.false_eq_true, if_false]
    exact ⟨s.state_wait, rfl⟩
  · rw [hattempt] at hreported ⊢
    obtain rfl := Except.ok.inj hreported
    simp only [hbegun, Option.isSome_none, Bool.false_eq_true, if_false]
    exact ⟨((st.home _).state_exec _).trans s.state_wait, rfl⟩
  · simp [hattempt] at hreported

end Supervisor

namespace Session

/-- **The state of the last run.**  Whatever was asked of a supervisor: after a script, for however
long a background reset has gone on, the state of the last run is the one that was reported, exactly
if the script came to its run or the state was that of a failed run before.  A script does not come
to its run where its challenge cannot be laid out or the arm cannot be brought home. -/
theorem state_eq_iff (st : Station) (d : Device σ) (rig : Rig σ) (requests : List Request)
    (source : List Char) (challenge : Option Challenge) {report : Report}
    (h : (((start rig).afterAll st d requests).supervisor.runScript st d source challenge).1 =
      .ok report) (k : Nat) :
    ((Supervisor.advance d)^[k] (((start rig).afterAll st d requests).supervisor.runScript st d
        source challenge).2).rig.state = report.state ↔
      (((start rig).afterAll st d requests).supervisor.begun? st d challenge).isSome = true ∨
        ((start rig).afterAll st d requests).supervisor.rig.state = .failed := by
  generalize ((start rig).afterAll st d requests).supervisor = s at *
  have hlater : ((Supervisor.advance d)^[k] (s.runScript st d source challenge).2).rig.state =
      (s.runScript st d source challenge).2.rig.state := by
    induction k with
    | zero => rfl
    | succ k ih => rw [Function.iterate_succ_apply', Supervisor.state_advance, ih]
  have hstate := Supervisor.state_runScript h
  rw [hlater]
  cases hbegun : (s.begun? st d challenge).isSome with
  | true =>
    rw [hbegun, if_pos rfl] at hstate
    simp [hstate]
  | false =>
    rw [hbegun, if_neg Bool.false_ne_true] at hstate
    obtain ⟨hbefore, hfailed⟩ := hstate
    simp [hbefore, hfailed]

/-- A script that is run after a reset has started, which it waits for. -/
theorem state_eq_steady : ∃ report,
    (((start steady).afterAll .standard Device.recorder.logged [.startReset]).supervisor.runScript
      .standard Device.recorder.logged liftSource none).1 = .ok report ∧
    ((Supervisor.advance Device.recorder.logged)^[3] (((start steady).afterAll .standard
      Device.recorder.logged [.startReset]).supervisor.runScript .standard Device.recorder.logged
      liftSource none).2).rig.state = report.state := by
  have hok : (((start steady).afterAll .standard Device.recorder.logged
      [.startReset]).supervisor.runScript .standard Device.recorder.logged liftSource none).1.isOk =
        true := by
    decide +kernel
  have hbegun : (((start steady).afterAll .standard Device.recorder.logged
      [.startReset]).supervisor.begun? .standard Device.recorder.logged none).isSome = true := by
    decide +kernel
  cases hreport : (((start steady).afterAll .standard Device.recorder.logged
      [.startReset]).supervisor.runScript .standard Device.recorder.logged liftSource none).1 with
  | error b =>
    rw [hreport] at hok
    exact absurd hok Bool.false_ne_true
  | ok report =>
    exact ⟨report, rfl, (state_eq_iff .standard Device.recorder.logged steady [.startReset] liftSource
      none hreport 3).mpr (.inl hbegun)⟩

/-- A challenge that cannot be laid out: it has no block types. -/
def untyped : Challenge := { name := "untyped", start := [⟨⟨7, 7, 1⟩, 0, "cube"⟩] }

/-- A script that does not come to its run, on a new supervisor: its challenge cannot be laid out, or
the connection is lost before the arm is at home.  It is reported as failed, with a rig that has
never been run. -/
theorem exists_state_ne :
    (∃ report, ((start steady).supervisor.runScript .standard Device.recorder.logged liftSource
        (some untyped)).1 = .ok report ∧ report.state = .failed ∧
      ((start steady).supervisor.runScript .standard Device.recorder.logged liftSource
        (some untyped)).2.rig.state = .idle) ∧
    ∃ report, ((start (Station.standard.rig { failAfter := some 0 })).supervisor.runScript .standard
        .recorder liftSource none).1 = .ok report ∧ report.state = .failed ∧
      ((start (Station.standard.rig { failAfter := some 0 })).supervisor.runScript .standard
        .recorder liftSource none).2.rig.state = .idle := by
  have hworld : (some untyped).mapM World.ofChallenge = .error (.unknownBlockType "cube") := rfl
  constructor
  · refine ⟨.failed (.unknownBlockType "cube"), ?_, rfl, ?_⟩
    · simp [Supervisor.runScript, Supervisor.attempt, hworld]
    · decide +kernel
  · refine ⟨.failed (.device Recorder.lost), ?_, rfl, ?_⟩
    · rfl
    · decide +kernel

end Session

end BlockArm
