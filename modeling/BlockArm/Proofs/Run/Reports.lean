/-
# What is reported of a run

A run may end at any statement, while the arm parks, or with a verdict on the blocks.  Wherever it
ends, its report, the state that the rig keeps and the blocks that are left tell the same.  A script
that does not read, or has no statements, is reported without a single call.

* `Report.WellFormed`: all that a report has to tell of a run;
* `Scene.Plays`, `Scene.plays_run`: a run only plays with the blocks;
* `Scene.applied_of_performAll`: how many statements are applied when none has failed;
* `Scene.reported_run_iff`: on a device that does not crash a run is reported unless it overflows, if
  its sweeps end;
* `Scene.reports_wellFormed`: every report of a run or a script is well formed.
-/
import BlockArm.Proofs.Run.Agreement
import BlockArm.Proofs.Run.Belief
import BlockArm.Proofs.Run.Roundings
import BlockArm.Proofs.Run.Watching
import BlockArm.Proofs.World.Play

namespace BlockArm

variable {σ : Type}

/-- What a report has to tell of a run that began in `s`, had some statements to carry out, and has
left `after`. -/
structure Report.WellFormed (report : Report) (statements : Nat) (s after : Scene σ) : Prop where
  /-- The run has ended. -/
  isTerminal : report.state.isTerminal = true
  /-- The rig keeps how it has ended. -/
  state_eq : after.rig.state = report.state
  /-- There is a fault just where the run has failed. -/
  error_iff : report.error?.isSome = true ↔ report.state = .failed
  /-- There is a verdict just where a challenge was played and the run was completed. -/
  success_iff : report.success?.isSome = true ↔
    report.state = .completed ∧ s.world.isSome = true
  /-- The verdict is the one on the blocks that are left. -/
  success_eq : report.state = .completed → report.success? = after.world.map World.solved
  applied_le : report.applied ≤ statements
  applied_eq : report.state = .completed → report.applied = statements
  applied_lt : report.state = .aborted → report.applied < statements

/-! ## The blocks of a run -/

/-- An effect is some operation of the gripper, or none. -/
theorem Effect.exists_afterAll_apply (e : Effect) (w : World) :
    ∃ operations, (e.apply w).2 = w.afterAll operations := by
  cases e with
  | grip c =>
    refine ⟨[.grip c], ?_⟩
    rcases hgrip : w.grip c with ⟨_ | _, after⟩ <;>
      simp [apply, hgrip, World.afterAll, World.after]
  | release c =>
    refine ⟨[.release c], ?_⟩
    rcases hrelease : w.release c with ⟨_ | _, after⟩ <;>
      simp [apply, hrelease, World.afterAll, World.after]
  | turn degrees =>
    by_cases hturns : degrees ≠ 0 ∧ w.isHolding = true
    · refine ⟨[.turn degrees], ?_⟩
      rw [apply, if_pos hturns]
      rcases hturn : w.turnHeld degrees with ⟨_ | _, after⟩ <;>
        simp [hturn, World.afterAll, World.after]
    · exact ⟨[], by rw [apply, if_neg hturns]; rfl⟩

namespace Scene

variable {st : Station} {d : Device σ} {program : Program} {s t u : Scene σ} {report : Report}

/-- The blocks of `t` are those of `s` after some operations of the gripper. -/
def Plays (s t : Scene σ) : Prop :=
  ∃ operations, t.world = s.world.map fun w => w.afterAll operations

theorem Plays.of_eq (h : t.world = s.world) : s.Plays t := by
  refine ⟨[], h.trans ?_⟩
  cases s.world <;> rfl

theorem Plays.trans (h : s.Plays t) (h' : t.Plays u) : s.Plays u := by
  obtain ⟨operations, ht⟩ := h
  obtain ⟨operations', hu⟩ := h'
  refine ⟨operations ++ operations', ?_⟩
  rw [hu, ht, Option.map_map]
  congr 1
  funext w
  exact (List.foldl_append ..).symm

/-- There are blocks after playing just where there were some before. -/
theorem Plays.isSome_world (h : s.Plays t) : t.world.isSome = s.world.isSome := by
  obtain ⟨operations, ht⟩ := h
  rw [ht, Option.isSome_map]

theorem plays_affect (e : Effect) (s : Scene σ) : s.Plays (affect e s).2 := by
  obtain ⟨rig, world⟩ := s
  cases world with
  | none => exact ⟨[], rfl⟩
  | some w =>
    obtain ⟨operations, hafter⟩ := e.exists_afterAll_apply w
    refine ⟨operations, ?_⟩
    simp only [affect, Option.map_some, ← hafter]
    rcases e.apply w with ⟨_ | _ | _, after⟩ <;> rfl

/-- A statement only plays with the blocks. -/
theorem plays_perform (st : Station) (d : Device σ) (statement : Statement) (s : Scene σ) :
    s.Plays (perform st d statement s).2 := by
  obtain ⟨rig, world⟩ := s
  simp only [perform]
  rcases (st.plan rig.arm statement).exec d rig with ⟨outcome, after⟩
  cases outcome with
  | value effect => exact (Plays.of_eq rfl).trans (plays_affect effect ⟨after, world⟩)
  | fault fault => exact .of_eq rfl
  | broken b => exact .of_eq rfl

/-- So do several statements. -/
theorem plays_performAll (st : Station) (d : Device σ) (program : Program) (n : Nat)
    (s : Scene σ) : s.Plays (performAll st d n program s).2 := by
  have hsay : ∀ (t : Scene σ) (level : Level) (text : String), s.Plays t →
      s.Plays (t.say level text) := fun t _ _ ht => ht.trans (.of_eq rfl)
  have hall : Leaves s.Plays s.Plays
      ((performAll st d n program s).1.outcome, (performAll st d n program s).2) := by
    refine performAll_stages hsay hsay program n s (.of_eq rfl) fun x _ hx => ?_
    have hplays := hx.trans (plays_perform st d x.statement x.before)
    rcases hperform : perform st d x.statement x.before with ⟨outcome, after⟩
    rw [hperform] at hplays
    cases outcome <;> exact hplays
  rcases hrun : performAll st d n program s with ⟨⟨outcome, m⟩, t⟩
  rw [hrun] at hall
  cases outcome <;> exact hall

/-- So does a whole run. -/
theorem plays_run (st : Station) (d : Device σ) (program : Program) (s : Scene σ) :
    s.Plays (run st d program s).2 := by
  have hall := plays_performAll st d program 0 (s.begin program)
  exact ((Plays.of_eq rfl).trans hall).trans (.of_eq (run_performAll st d program s).1)

/-- And so does the run of a script, whether it reads or not. -/
theorem plays_runSource (st : Station) (d : Device σ) (source : List Char) (s : Scene σ) :
    s.Plays (runSource st d source s).2 := by
  rcases runSource_cases st d source s with ⟨fault, hreject⟩ | hrun
  · rw [hreject]
    exact .of_eq rfl
  · rw [hrun]
    exact plays_run st d _ s

/-! ## Reports -/

/-- Where no statement has failed, all of them were applied, or a stop was asked for before one of
them. -/
theorem applied_of_performAll (program : Program) :
    ∀ {n m : Nat} {s t : Scene σ} {all : Bool},
      performAll st d n program s = (⟨.value all, m⟩, t) →
      if all then m = n + program.length else m < n + program.length := by
  induction program with
  | nil =>
    intro n m s t all h
    obtain ⟨hhalt, -⟩ := Prod.mk.inj h
    obtain ⟨hall, rfl⟩ := Halt.mk.inj hhalt
    obtain rfl := Outcome.value.inj hall
    rfl
  | cons statement rest ih =>
    intro n m s t all h
    rw [performAll] at h
    split at h
    · obtain ⟨hhalt, -⟩ := Prod.mk.inj h
      obtain ⟨hall, rfl⟩ := Halt.mk.inj hhalt
      obtain rfl := Outcome.value.inj hall
      rw [if_neg Bool.false_ne_true, List.length_cons]
      omega
    · rcases hperform : perform st d statement s with ⟨outcome, after⟩
      rw [hperform] at h
      cases outcome with
      | fault fault => simp at h
      | broken b => simp at h
      | value u =>
        have hrest := ih h
        rw [List.length_cons]
        split at hrest <;> simp_all <;> omega

/-- The end of a run that was stopped. -/
theorem wellFormed_aborted {n statements : Nat} (hlt : n < statements)
    (h : (finish .aborted (.underway n) t).1 = .ok report) :
    report.WellFormed statements s (finish .aborted (.underway n) t).2 := by
  obtain rfl := Except.ok.inj h
  constructor <;> simp [finish, Report.underway, RunState.isTerminal, hlt, hlt.le]

/-- The end of a run that has failed. -/
theorem wellFormed_failed {fault : Fault} {n statements : Nat} (hle : n ≤ statements)
    (h : (finish .failed { Report.underway n with error? := some fault } t).1 = .ok report) :
    report.WellFormed statements s
      (finish .failed { Report.underway n with error? := some fault } t).2 := by
  obtain rfl := Except.ok.inj h
  constructor <;> simp [finish, Report.underway, RunState.isTerminal, hle]

/-- The end of a run that parks tells the verdict, or why the arm was not parked. -/
theorem wellFormed_conclude {n : Nat} (hworld : t.world.isSome = s.world.isSome)
    (h : (conclude st d (.underway n) t).1 = .ok report) :
    report.WellFormed n s (conclude st d (.underway n) t).2 := by
  unfold conclude at h ⊢
  rcases hpark : st.park.exec d t.rig with ⟨outcome, rig⟩
  rw [hpark] at h
  cases outcome with
  | broken b => simp at h
  | fault fault => exact wellFormed_failed le_rfl h
  | value u =>
    obtain rfl := Except.ok.inj h
    constructor <;> simp [finish, say, Report.underway, RunState.isTerminal, hworld]

/-- What is reported of a run of a program is well formed. -/
theorem wellFormed_run (h : (run st d program s).1 = .ok report) :
    report.WellFormed program.length s (run st d program s).2 := by
  have hworld := (plays_performAll st d program 0 (s.begin program)).isSome_world
  replace hworld : _ = s.world.isSome := hworld
  have hle := (applied_performAll st d program 0 (s.begin program)).2
  unfold run at h ⊢
  rcases hall : performAll st d 0 program (s.begin program) with ⟨⟨outcome, n⟩, t⟩
  rw [hall] at h hworld hle
  rw [Nat.zero_add] at hle
  cases outcome with
  | fault fault => exact wellFormed_failed hle h
  | broken b => simp at h
  | value all =>
    have happlied := applied_of_performAll program hall
    rw [Nat.zero_add] at happlied
    cases all with
    | true =>
      obtain rfl : n = program.length := happlied
      exact wellFormed_conclude hworld h
    | false => exact wellFormed_aborted happlied h

/-- A script that is rejected is reported with its fault. -/
theorem wellFormed_reject {fault : Fault} (h : (reject fault s).1 = .ok report) (n : Nat) :
    report.WellFormed n s (reject fault s).2 := by
  obtain rfl := Except.ok.inj h
  constructor <;> simp [Report.failed, reject, RunState.isTerminal]

/-- What is reported of a script is well formed, whether it reads or not. -/
theorem wellFormed_runSource {source : List Char} (h : (runSource st d source s).1 = .ok report) :
    report.WellFormed (Script.program source).length s (runSource st d source s).2 := by
  rcases runSource_cases st d source s with ⟨fault, hreject⟩ | hrun
  · rw [hreject] at h ⊢
    exact wellFormed_reject h _
  · rw [hrun] at h ⊢
    exact wellFormed_run h

end Scene

/-! ## Runs that are reported -/

namespace Scene

variable {st : Station} {d : Device σ} {program : Program} {s : Scene σ}

/-- A statement only breaks down for an overflow, if its sweep ends. -/
theorem eq_overflow_of_perform (hd : d.Sturdy) {statement : Statement}
    (h : statement.command.sweeps = true → st.SweepEnds) {b : Breakdown}
    (hperform : (perform st d statement s).1 = .broken b) : b = .overflow := by
  have hplan := perform_eq_broken_iff.mp hperform
  have hbreaks : (st.plan s.rig.arm statement).BreaksOnly (· = .overflow) :=
    st.breaksOnly_plan _ (fun _ => rfl) fun hsweeps hends => absurd (h hsweeps) hends
  rcases hbreaks.cause_of_exec hplan with hover | ⟨-, hcrash⟩
  · exact hover
  · exact absurd hd hcrash

/-- So does a run. -/
theorem eq_overflow_of_run (hd : d.Sturdy) (h : st.SweepsEnd program) {b : Breakdown}
    (hrun : (run st d program s).1 = .error b) : b = .overflow := by
  rcases broken_of_run hrun with ⟨x, hx, hbroken⟩ | ⟨r, hpark⟩
  · exact eq_overflow_of_perform hd (h _ (statement_mem_of_mem_stages x hx)) hbroken
  · exact absurd hpark (st.breaksOnly_park.exec_ne_broken hd r b)

/-- On a device that does not crash, and if its sweeps end, a run is reported unless one of its stages
comes to an overflow. -/
theorem reported_run_iff (hd : d.Sturdy) (h : st.SweepsEnd program) :
    (∃ report, (run st d program s).1 = .ok report) ↔
      ∀ x ∈ stages st d program (s.begin program), ¬ x.Overflows st d := by
  have hover := @run_overflow_iff σ st d program s
  have hcause := fun b => @eq_overflow_of_run σ st d program s hd h b
  rcases hrun : (run st d program s).1 with b | report
  · rw [hrun] at hover hcause
    obtain rfl := hcause b rfl
    obtain ⟨x, hx, hfits⟩ := hover.mp rfl
    exact iff_of_false (by simp) fun hall => hall x hx hfits
  · rw [hrun] at hover
    exact iff_of_true ⟨report, rfl⟩ fun x hx hfits => absurd (hover.mpr ⟨x, hx, hfits⟩) (by simp)

/-- So is a script, which has no stages if it does not read. -/
theorem reported_runSource_iff (hd : d.Sturdy) {source : List Char}
    (h : st.SweepsEnd (Script.program source)) :
    (∃ report, (runSource st d source s).1 = .ok report) ↔
      ∀ x ∈ stages st d (Script.program source) (s.begin (Script.program source)),
        ¬ x.Overflows st d := by
  have hreject : ∀ fault, ∃ report, (reject fault s).1 = .ok report := fun fault => ⟨_, rfl⟩
  unfold runSource
  cases hparse : Script.parse source with
  | error fault =>
    rw [show Script.program source = [] by rw [Script.program, hparse]; rfl]
    exact iff_of_true (hreject fault) fun x hx => absurd hx List.not_mem_nil
  | ok program =>
    rw [show Script.program source = program by rw [Script.program, hparse]; rfl] at h ⊢
    cases program with
    | nil => exact iff_of_true (hreject .emptyScript) fun x hx => absurd hx List.not_mem_nil
    | cons first rest => exact reported_run_iff hd h

/-- **Reports are well formed.**  What is reported of a run, or of a script, tells how it has ended,
as the rig keeps it; a fault just where it has failed; a verdict just where a challenge was played to
the end, and then the one on the blocks that are left; and how many statements were applied: all of
them if it was completed, and fewer if it was stopped.  A script that does not read or has no
statements is reported as failed, with nothing applied, no call made, and blocks and belief as they
were.  On a device that does not crash, and if sweeps end, there is a report unless a stage comes to an
overflow. -/
theorem reports_wellFormed (st : Station) (d : Device σ) (s : Scene σ) :
    (∀ program report, (run st d program s).1 = .ok report →
      report.WellFormed program.length s (run st d program s).2) ∧
    (∀ source report, (runSource st d source s).1 = .ok report →
      report.WellFormed (Script.program source).length s (runSource st d source s).2) ∧
    (∀ source fault, Script.parse source = .error fault ∨
        Script.parse source = .ok [] ∧ fault = .emptyScript →
      (runSource st d source s).1 = .ok { state := .failed, error? := some fault } ∧
      (runSource st d.logged source s.logged).2.rig.device.trace = [] ∧
      (runSource st d source s).2.rig.device = s.rig.device ∧
      (runSource st d source s).2.world = s.world ∧
      (runSource st d source s).2.rig.arm = s.rig.arm) ∧
    (d.Sturdy →
      (∀ program, st.SweepsEnd program → ((∃ report, (run st d program s).1 = .ok report) ↔
        ∀ x ∈ stages st d program (s.begin program), ¬ x.Overflows st d)) ∧
      ∀ source, st.SweepsEnd (Script.program source) →
        ((∃ report, (runSource st d source s).1 = .ok report) ↔
          ∀ x ∈ stages st d (Script.program source) (s.begin (Script.program source)),
            ¬ x.Overflows st d)) := by
  refine ⟨fun _ _ => wellFormed_run, fun _ _ => wellFormed_runSource, ?_, ?_⟩
  · intro source fault hparse
    have hreject : ∀ {τ : Type} (e : Device τ) (t : Scene τ),
        runSource st e source t = reject fault t := by
      intro τ e t
      rcases hparse with hparse | ⟨hparse, rfl⟩ <;> simp only [runSource, hparse]
    have htrace : (reject fault s.logged).2.rig.device = s.logged.rig.device := Rig.device_say ..
    simp only [hreject, htrace]
    exact ⟨rfl, rfl, Rig.device_say .., rfl, arm_reject fault s⟩
  · intro hd
    exact ⟨fun _ h => reported_run_iff hd h, fun _ h => reported_runSource_iff hd h⟩

/-- The sweep of the standard station ends after its nineteenth angle. -/
theorem sweepEnds_standard : Station.standard.SweepEnds := ⟨19, by decide, by decide +kernel⟩

/-- A run that sweeps and is asked to stop while the held board is lowered, a script that is asked to
stop in its only statement, and one without statements. -/
theorem reports_boardGripped :
    (∃ report, (run .standard (.attended fun c _ => c matches .moveZ _)
        [⟨1, .diagnose [0]⟩, ⟨2, .lift 1⟩, ⟨3, .release⟩] boardGripped).1 = .ok report ∧
      report.WellFormed 3 boardGripped (run .standard (.attended fun c _ => c matches .moveZ _)
        [⟨1, .diagnose [0]⟩, ⟨2, .lift 1⟩, ⟨3, .release⟩] boardGripped).2) ∧
    (∃ report, (runSource .standard (.attended fun c _ => c matches .moveZ _) "hoehe(1)".toList
        boardGripped).1 = .ok report ∧
      report.WellFormed (Script.program "hoehe(1)".toList).length boardGripped
        (runSource .standard (.attended fun c _ => c matches .moveZ _) "hoehe(1)".toList
          boardGripped).2) ∧
    (runSource .standard (.attended fun c _ => c matches .moveZ _) ";".toList boardGripped).1 =
      .ok { state := .failed, error? := some .emptyScript } := by
  obtain ⟨hrun, hsource, hrejected, hreported⟩ :=
    reports_wellFormed .standard (.attended fun c _ => c matches .moveZ _) boardGripped
  obtain ⟨hruns, hsources⟩ := hreported fun c r => Device.sturdy_recorder c r
  have hparse : Script.parse ";".toList = .ok [] := by cbv
  have hprogram : Script.program "hoehe(1)".toList = [⟨1, .lift 1⟩] := rfl
  obtain ⟨report, hreport⟩ := (hruns [⟨1, .diagnose [0]⟩, ⟨2, .lift 1⟩, ⟨3, .release⟩]
    fun _ _ _ => sweepEnds_standard).mpr (not_overflows_of_unturned (by simp [Command.rounds]))
  obtain ⟨report', hreport'⟩ := (hsources "hoehe(1)".toList fun _ _ _ => sweepEnds_standard).mpr
    (not_overflows_of_unturned (by rw [hprogram]; simp [Command.rounds]))
  exact ⟨⟨report, hreport, hrun _ report hreport⟩, ⟨report', hreport', hsource _ report' hreport'⟩,
    (hrejected _ .emptyScript (.inr ⟨hparse, rfl⟩)).1⟩

end Scene

end BlockArm
