/-
# Asking for a stop

Whoever asks for a stop is heard between statements only.  Until then the run goes on as if nobody
had asked: the statement that is under way makes all its calls and has its effect on the blocks.
Where it was the last one, the arm parks and the blocks are judged.

* `Device.calm`, `simulates_calm`: the same device where nobody asks, and that nobody hears of it
  within a plan;
* `Scene.stages_calm`: the statements that are begun are begun where nobody asks, too;
* `Scene.performAll_after`: a run goes on from behind each statement that has succeeded;
* `Scene.run_calm`: a run that is not stopped is the one where nobody asks;
* `Scene.run_stopped`: what becomes of a run, depending on when somebody asks.
-/
import BlockArm.Proofs.Run.Agreement
import BlockArm.Proofs.Run.Watching

namespace BlockArm

variable {σ α : Type}

/-! ## Where nobody asks -/

/-- The device while nobody asks for a stop. -/
def Device.calm (d : Device σ) : Device σ where
  perform c s := ({ (d.perform c s).1 with stop := false }, (d.perform c s).2)
  pose := d.pose

/-- It makes no difference to the trace. -/
theorem Device.logged_calm (d : Device σ) : d.calm.logged = d.logged.calm := rfl

namespace Rig

/-- The rig before anybody has asked for a stop. -/
def calm (r : Rig σ) : Rig σ := { r with stop := false }

theorem calm_of_stop {r : Rig σ} (h : r.stop = false) : r.calm = r := by
  rw [calm, ← h]

theorem calm_say (r : Rig σ) (level : Level) (text : String) :
    (r.say level text).calm = r.calm.say level text := by
  unfold say
  split <;> rename_i h
  · exact (if_pos h).symm
  · exact (if_neg h).symm

end Rig

/-- No single step is taken in another way because somebody has asked for a stop. -/
theorem simulates_calm (d : Device σ) : Simulates d d.calm fun r r' => r' = r.calm where
  arm_eq := by rintro r _ rfl; rfl
  warnings_eq := by rintro r _ rfl; rfl
  pose_eq := by rintro r _ rfl; rfl
  answer_eq := by rintro r _ rfl c; rfl
  ask := by rintro r _ rfl c; rfl
  say := by rintro r _ rfl level text; exact (r.calm_say level text).symm
  believe := by rintro r _ rfl arm; rfl
  record := by rintro r _ rfl warnings; rfl
  enter := by rintro r _ rfl state; rfl

namespace Scene

/-- The scene before anybody has asked for a stop. -/
def calm (s : Scene σ) : Scene σ := { s with rig := s.rig.calm }

theorem calm_of_stop {s : Scene σ} (h : s.rig.stop = false) : s.calm = s := by
  rw [calm, Rig.calm_of_stop h]

theorem Related.eq_calm {s s' : Scene σ} (h : Related (fun r r' => r' = r.calm) s s') :
    s' = s.calm := by
  rw [calm, ← h.rig, h.world]

theorem related_calm (s : Scene σ) : Related (fun r r' => r' = r.calm) s s.calm := ⟨rfl, rfl⟩

theorem calm_begin (program : Program) (s : Scene σ) :
    s.calm.begin program = (s.begin program).calm := by
  unfold begin say calm
  rw [Rig.calm_say]
  rfl

/-- A statement does what it does where nobody asks. -/
theorem perform_calm (st : Station) (d : Device σ) (statement : Statement) (s : Scene σ) :
    perform st d.calm statement s.calm =
      ((perform st d statement s).1, (perform st d statement s).2.calm) := by
  obtain ⟨houtcome, hafter⟩ := (simulates_calm d).perform st statement s.related_calm
  exact Prod.ext houtcome.symm hafter.eq_calm

/-! ## The stages of a run that is stopped -/

/-- The stage before anybody has asked for a stop. -/
def Stage.calm (x : Stage σ) : Stage σ := { x with before := x.before.calm }

/-- The statements that are begun are the first ones that are begun where nobody asks. -/
theorem stages_calm (st : Station) (d : Device σ) (program : Program) : ∀ s : Scene σ,
    (stages st d program s).map Stage.calm <+: stages st d.calm program s.calm := by
  induction program with
  | nil => exact fun _ => List.prefix_refl _
  | cons statement rest ih =>
    intro s
    have hcalm : ¬ s.calm.rig.stop = true := Bool.false_ne_true
    rw [stages]
    split
    · exact List.nil_prefix
    · rw [stages, if_neg hcalm, List.map_cons, perform_calm]
      refine List.cons_prefix_cons.mpr ⟨rfl, ?_⟩
      rcases perform st d statement s with ⟨outcome, after⟩
      cases outcome with
      | value u => exact ih after
      | fault fault => exact List.nil_prefix
      | broken b => exact List.nil_prefix

variable {st : Station} {d : Device σ}

/-- The first stage is that of the first statement, and each further one is a stage of what comes
after the first has succeeded. -/
theorem stages_cons_getElem? {statement : Statement} {rest : Program} {s : Scene σ} {i : Nat}
    {x : Stage σ} (h : (stages st d (statement :: rest) s)[i]? = some x) :
    s.rig.stop = false ∧ (i = 0 ∧ x = ⟨statement, s⟩ ∨
      ∃ j after, i = j + 1 ∧ perform st d statement s = (.value (), after) ∧
        (stages st d rest after)[j]? = some x) := by
  rw [stages] at h
  split at h
  · simp at h
  · next hstop =>
    refine ⟨Bool.eq_false_iff.mpr hstop, ?_⟩
    cases i with
    | zero => exact .inl ⟨rfl, (Option.some.inj h).symm⟩
    | succ j =>
      rw [List.getElem?_cons_succ] at h
      rcases hperform : perform st d statement s with ⟨outcome, after⟩
      rw [hperform] at h
      cases outcome with
      | value u => exact .inr ⟨j, after, rfl, rfl, h⟩
      | fault fault => simp at h
      | broken b => simp at h

/-- The stages are those of the first statements.  Nobody has asked for a stop when one of them
begins, nor before. -/
theorem stages_getElem? {program : Program} : ∀ {s : Scene σ} {i : Nat} {x : Stage σ},
    (stages st d program s)[i]? = some x →
      program[i]? = some x.statement ∧ x.before.rig.stop = false ∧ s.rig.stop = false := by
  induction program with
  | nil => exact fun h => absurd h (by simp [stages])
  | cons statement rest ih =>
    intro s i x h
    obtain ⟨hstop, ⟨rfl, rfl⟩ | ⟨j, after, rfl, -, hlater⟩⟩ := stages_cons_getElem? h
    · exact ⟨rfl, hstop, hstop⟩
    · obtain ⟨hstatement, hquiet, -⟩ := ih hlater
      exact ⟨hstatement, hquiet, hstop⟩

/-- The statements go on from behind each one that has succeeded. -/
theorem performAll_after {program : Program} : ∀ {n i : Nat} {s after : Scene σ} {x : Stage σ},
    (stages st d program s)[i]? = some x →
    perform st d x.statement x.before = (.value (), after) →
      performAll st d n program s =
        performAll st d (n + (i + 1)) (program.drop (i + 1)) after := by
  induction program with
  | nil => exact fun h => absurd h (by simp [stages])
  | cons statement rest ih =>
    intro n i s after x h hx
    obtain ⟨hstop, ⟨rfl, rfl⟩ | ⟨j, next, rfl, hperform, hlater⟩⟩ := stages_cons_getElem? h
    · rw [performAll, if_neg (Bool.eq_false_iff.mp hstop), hx]
      rfl
    · rw [performAll, if_neg (Bool.eq_false_iff.mp hstop), hperform]
      simp only [ih hlater hx, List.drop_succ_cons]
      rw [Nat.add_assoc, Nat.add_comm 1]

/-! ## Runs -/

/-- Statements that are not stopped do what they do where nobody asks. -/
theorem performAll_calm (program : Program) : ∀ (n : Nat) (s : Scene σ),
    (performAll st d n program s).1.outcome ≠ .value false →
      performAll st d.calm n program s.calm =
        ((performAll st d n program s).1, (performAll st d n program s).2.calm) := by
  induction program with
  | nil => exact fun _ _ _ => rfl
  | cons statement rest ih =>
    intro n s h
    have hcalm : ¬ s.calm.rig.stop = true := Bool.false_ne_true
    rw [performAll, if_neg hcalm, perform_calm]
    by_cases hstop : s.rig.stop = true
    · rw [performAll, if_pos hstop] at h
      exact absurd rfl h
    · rw [performAll, if_neg hstop] at h ⊢
      rcases hperform : perform st d statement s with ⟨outcome, after⟩
      rw [hperform] at h
      cases outcome with
      | value u => exact ih (n + 1) after h
      | broken b => rfl
      | fault fault =>
        refine Prod.ext rfl ?_
        exact ((simulates_calm d).sayIn after.related_calm _ _).eq_calm

/-- A run that is not stopped is the one where nobody asks. -/
theorem run_calm {program : Program} {s : Scene σ}
    (h : (performAll st d 0 program (s.begin program)).1.outcome ≠ .value false) :
    run st d.calm program s.calm =
      ((run st d program s).1, (run st d program s).2.calm) := by
  have hall := performAll_calm program 0 (s.begin program) h
  unfold run
  rw [calm_begin, hall]
  rcases hfinal : performAll st d 0 program (s.begin program) with ⟨⟨outcome, n⟩, t⟩
  rw [hfinal] at h
  have hfinish : ∀ state report, finish state report t.calm =
      ((finish state report t).1, (finish state report t).2.calm) := fun _ _ => rfl
  cases outcome with
  | broken b => rfl
  | fault fault => exact hfinish _ _
  | value all =>
    cases all with
    | false => exact absurd rfl h
    | true =>
      obtain ⟨hreport, hlast⟩ := (simulates_calm d).conclude st _ t.related_calm
      exact Prod.ext hreport.symm hlast.eq_calm

theorem stop_begin (program : Program) (s : Scene σ) :
    (s.begin program).rig.stop = s.rig.stop := Rig.stop_say ..

/-- A run that is asked to stop beforehand makes no step. -/
theorem run_of_stop {program : Program} {s : Scene σ} (h : s.rig.stop = true)
    (hne : program ≠ []) : run st d program s = finish .aborted (.underway 0)
      ((s.begin program).say .info ("stopped after " ++ Text.natText 0 ++ " command(s)")) := by
  obtain ⟨first, rest, rfl⟩ := List.exists_cons_of_ne_nil hne
  unfold run
  rw [performAll, if_pos ((stop_begin _ s).trans h)]

section After

variable {program : Program} {s after : Scene σ} {i : Nat} {x : Stage σ}

/-- One that is asked to stop while a statement succeeds ends behind it, if more were to come. -/
theorem run_of_stop_after (hx : (stages st d program (s.begin program))[i]? = some x)
    (hperform : perform st d x.statement x.before = (.value (), after))
    (hstop : after.rig.stop = true) (hi : i + 1 < program.length) :
    run st d program s = finish .aborted (.underway (i + 1))
      (after.say .info ("stopped after " ++ Text.natText (i + 1) ++ " command(s)")) := by
  unfold run
  rw [performAll_after hx hperform, List.drop_eq_getElem_cons hi, performAll, if_pos hstop,
    Nat.zero_add]

/-- A run whose last statement succeeds is not stopped. -/
theorem run_calm_of_last (hx : (stages st d program (s.begin program))[i]? = some x)
    (hperform : perform st d x.statement x.before = (.value (), after))
    (hi : i + 1 = program.length) : run st d.calm program s.calm =
      ((run st d program s).1, (run st d program s).2.calm) := by
  refine run_calm ?_
  rw [performAll_after hx hperform, hi, List.drop_length, performAll]
  simp

end After

/-- **A stop is heard between statements.**  If somebody has asked for it before the run, no call is
made and nothing changes.  If they ask while a statement is under way that succeeds, it makes all
its calls and has its effect, as it would if nobody had asked.  Where it was the last one, the run
ends like the one where nobody asks; otherwise it ends there, without another call, and the blocks
stay as the statement has left them. -/
theorem run_stopped (st : Station) (d : Device σ) (program : Program) (s : Scene σ) :
    (s.rig.stop = true → program ≠ [] →
      (run st d program s).1 = .ok { state := .aborted, applied := 0, warnings := [] } ∧
      calls st d program s = [] ∧ (run st d program s).2.world = s.world ∧
      (run st d program s).2.rig.device = s.rig.device ∧
      (run st d program s).2.rig.arm = s.rig.arm) ∧
    ∀ (i : Nat) (x : Stage (Logged σ)) (after : Scene (Logged σ)),
      (stages st d.logged program (s.logged.begin program))[i]? = some x →
      perform st d.logged x.statement x.before = (.value (), after) →
      after.rig.stop = true →
        program[i]? = some x.statement ∧ x.before.rig.stop = false ∧
        (stages st d.calm.logged program (s.logged.begin program))[i]? = some x ∧
        perform st d.calm.logged x.statement x.before = (.value (), after.calm) ∧
        (i + 1 = program.length →
          (run st d program s).1 = (run st d.calm program s).1 ∧
          calls st d program s = calls st d.calm program s ∧
          (run st d program s).2.calm = (run st d.calm program s).2) ∧
        (i + 1 < program.length →
          (run st d program s).1 = .ok
            { state := .aborted, applied := i + 1, warnings := after.rig.warnings.toList } ∧
          calls st d program s = after.rig.device.trace.reverse ∧
          (run st d program s).2.world = after.world ∧
          (run st d program s).2.rig.device = after.rig.device.device ∧
          (run st d program s).2.rig.arm = after.rig.arm) := by
  unfold calls
  rw [run_logged st d program s, run_logged st d.calm program s, d.logged_calm]
  refine ⟨fun hstop hne => ?_, fun i x after hx hperform hafter => ?_⟩
  · rw [run_of_stop (s := s.logged) hstop hne]
    simp only [finish, unlogged, Rig.unlogged, begin, say, Rig.device_say, Rig.arm_say,
      Rig.warnings_say]
    exact ⟨rfl, rfl, rfl, rfl, rfl⟩
  · obtain ⟨hstatement, hquiet, hbegin⟩ := stages_getElem? hx
    have hcalm : s.logged.calm = s.logged :=
      calm_of_stop ((stop_begin program s.logged).symm.trans hbegin)
    have hbefore : x.calm = x := by rw [Stage.calm, calm_of_stop hquiet]
    refine ⟨hstatement, hquiet, ?_, ?_, fun hi => ?_, fun hi => ?_⟩
    · obtain ⟨later, hlater⟩ := stages_calm st d.logged program (s.logged.begin program)
      rw [calm_of_stop hbegin] at hlater
      rw [← hlater, List.getElem?_append_left, List.getElem?_map, hx]
      · exact congrArg some hbefore
      · rw [List.length_map]
        exact (List.getElem?_eq_some_iff.mp hx).1
    · have hsame := perform_calm st d.logged x.statement x.before
      rwa [calm_of_stop hquiet, hperform] at hsame
    · have hsame := run_calm_of_last hx hperform hi
      rw [hcalm] at hsame
      rw [hsame]
      exact ⟨rfl, rfl, rfl⟩
    · rw [run_of_stop_after hx hperform hafter hi]
      simp only [finish, unlogged, Rig.unlogged, say, Rig.device_say, Rig.arm_say,
        Rig.warnings_say, and_self, and_true]
      rfl

/-- The recording device while somebody asks for a stop as soon as the arm is to be lowered. -/
def onLowering : Device Recorder := .attended fun c _ => c matches .moveZ _

/-- A program that turns, lowers and releases a block. -/
def turnLowerRelease : Program := [⟨1, .turn 90⟩, ⟨2, .lift 1⟩, ⟨3, .release⟩]

/-- Whether the second statement succeeds while somebody asks for a stop. -/
def stopsSecond (program : Program) : Bool :=
  (stages .standard onLowering.logged program (boardGripped.logged.begin program))[1]?.any
    fun x => match perform .standard onLowering.logged x.statement x.before with
      | (.value (), after) => after.rig.stop
      | _ => false

theorem exists_of_stopsSecond (program : Program) (h : stopsSecond program = true) : ∃ x after,
    (stages .standard onLowering.logged program (boardGripped.logged.begin program))[1]? = some x ∧
    perform .standard onLowering.logged x.statement x.before = (.value (), after) ∧
    after.rig.stop = true := by
  unfold stopsSecond at h
  rcases hx : (stages .standard onLowering.logged program
    (boardGripped.logged.begin program))[1]? with _ | x
  · simp [hx] at h
  · rw [hx, Option.any_some] at h
    rcases hperform : perform .standard onLowering.logged x.statement x.before with ⟨outcome, after⟩
    rw [hperform] at h
    cases outcome with
    | value u => exact ⟨x, after, rfl, hperform, h⟩
    | fault fault => exact absurd h Bool.false_ne_true
    | broken b => exact absurd h Bool.false_ne_true

/-- The held board is turned and lowered when somebody asks for a stop, so that it is not released
any more.  Where nothing was to come after that, the arm parks. -/
theorem run_stopped_boardGripped :
    (∃ after : Scene (Logged Recorder), after.rig.stop = true ∧
      (run .standard onLowering turnLowerRelease boardGripped).1 = .ok
        { state := .aborted, applied := 2, warnings := after.rig.warnings.toList } ∧
      calls .standard onLowering turnLowerRelease boardGripped =
        after.rig.device.trace.reverse ∧
      (run .standard onLowering turnLowerRelease boardGripped).2.world = after.world) ∧
    (run .standard onLowering (turnLowerRelease.take 2) boardGripped).1 =
      (run .standard onLowering.calm (turnLowerRelease.take 2) boardGripped).1 := by
  obtain ⟨-, hstopped⟩ := run_stopped .standard onLowering turnLowerRelease boardGripped
  obtain ⟨-, hlast⟩ := run_stopped .standard onLowering (turnLowerRelease.take 2) boardGripped
  obtain ⟨x, after, hx, hperform, hstop⟩ :=
    exists_of_stopsSecond turnLowerRelease (by decide +kernel)
  obtain ⟨y, last, hy, hparks, hlate⟩ :=
    exists_of_stopsSecond (turnLowerRelease.take 2) (by decide +kernel)
  obtain ⟨-, -, -, -, -, hshort⟩ := hstopped 1 x after hx hperform hstop
  obtain ⟨-, -, -, -, hwhole, -⟩ := hlast 1 y last hy hparks hlate
  obtain ⟨hreport, hcalls, hworld, -⟩ := hshort (by decide)
  exact ⟨⟨after, hstop, hreport, hcalls, hworld⟩, (hwhole (by decide)).1⟩

end Scene

end BlockArm
