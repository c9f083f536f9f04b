/-
# A logic of runs

What every statement keeps is kept by any number of them, whether the last one succeeds or not.  The
world of a challenge has no part in this, since effects reach neither the device nor the belief.

* `Scene.stages`: the statements that a program begins, and the scenes that they begin in;
* `Scene.performAll_stages`, `Scene.run_stages`: what each of these keeps holds in the end;
* `Scene.meets_perform`: a statement bears out what its plan ensures;
* `Scene.run_ensures`: what every statement keeps, and parking leaves, holds after a run.
-/
import BlockArm.Proofs.Arm.PlanLogic
import BlockArm.Run.Report

namespace BlockArm

variable {σ : Type}

namespace Scene

variable {st : Station} {d : Device σ} {I E : σ → ArmState → Prop}

/-! ## The stages of a run -/

/-- A statement of a run, and the scene that it begins in. -/
structure Stage (σ : Type) where
  statement : Statement
  before : Scene σ

/-- The statements that are begun, in order: each follows on the success of the one before it. -/
def stages (st : Station) (d : Device σ) : Program → Scene σ → List (Stage σ)
  | [], _ => []
  | statement :: rest, s =>
    if s.rig.stop then []
    else ⟨statement, s⟩ :: match perform st d statement s with
      | (.value (), s) => stages st d rest s
      | (.fault _, _) | (.broken _, _) => []

/-- One assertion holds after a success, another one where there is none. -/
def Leaves {α : Type} (I E : Scene σ → Prop) : Outcome α × Scene σ → Prop
  | (.value _, s) => I s
  | (.fault _, s) | (.broken _, s) => E s

section Stages

variable {I E : Scene σ → Prop}

/-- What each stage keeps holds after the last one, whether it succeeds or not. -/
theorem performAll_stages (hI : ∀ s level text, I s → I (s.say level text))
    (hE : ∀ s level text, E s → E (s.say level text)) (program : Program) :
    ∀ (n : Nat) (s : Scene σ), I s →
      (∀ x ∈ stages st d program s, I x.before → Leaves I E (perform st d x.statement x.before)) →
      Leaves I E ((performAll st d n program s).1.outcome, (performAll st d n program s).2) := by
  induction program with
  | nil =>
    intro n s h _
    exact h
  | cons statement rest ih =>
    intro n s h hstages
    rw [performAll]
    rw [stages] at hstages
    split
    · exact hI _ _ _ h
    · next hstop =>
      rw [if_neg hstop] at hstages
      have hfirst := hstages _ List.mem_cons_self h
      rcases happly : perform st d statement s with ⟨outcome, after⟩
      simp only [happly] at hfirst hstages
      -- a statement that is not carried out ends the run
      cases outcome with
      | value u => exact ih (n + 1) after hfirst fun x hx => hstages x (List.mem_cons_of_mem _ hx)
      | fault fault => exact hE _ _ _ hfirst
      | broken b => exact hfirst

/-- A stage is the first one, or it comes after the success of the first one. -/
theorem mem_stages_cons {statement : Statement} {rest : Program} {s : Scene σ} {x : Stage σ}
    (h : x ∈ stages st d (statement :: rest) s) :
    x = ⟨statement, s⟩ ∨
      ∃ after, perform st d statement s = (.value (), after) ∧ x ∈ stages st d rest after := by
  rw [stages] at h
  split at h
  · exact absurd h List.not_mem_nil
  · refine (List.mem_cons.mp h).imp_right fun hrest => ?_
    rcases happly : perform st d statement s with ⟨outcome, after⟩
    rw [happly] at hrest
    cases outcome with
    | value u => exact ⟨after, rfl, hrest⟩
    | fault fault => exact absurd hrest List.not_mem_nil
    | broken b => exact absurd hrest List.not_mem_nil

/-- The statement of a stage is one of the program. -/
theorem statement_mem_of_mem_stages {program : Program} :
    ∀ {s : Scene σ}, ∀ x ∈ stages st d program s, x.statement ∈ program := by
  induction program with
  | nil => exact fun x hx => absurd hx List.not_mem_nil
  | cons statement rest ih =>
    intro s x hx
    rcases mem_stages_cons hx with rfl | ⟨after, -, hx⟩
    · exact List.mem_cons_self
    · exact List.mem_cons_of_mem _ (ih x hx)

/-- What each stage keeps holds where any of them begins. -/
theorem before_of_mem_stages
    (hstep : ∀ statement s, I s → Leaves I (fun _ => True) (perform st d statement s))
    {program : Program} :
    ∀ {s : Scene σ}, I s → ∀ x ∈ stages st d program s, I x.before := by
  induction program with
  | nil => exact fun _ x hx => absurd hx List.not_mem_nil
  | cons statement rest ih =>
    intro s h x hx
    rcases mem_stages_cons hx with rfl | ⟨after, happly, hx⟩
    · exact h
    · have hfirst := hstep statement s h
      rw [happly] at hfirst
      exact ih hfirst x hx

/-- The four ways in which a run ends, after stages that keep an assertion. -/
theorem run_stages {F : Except Breakdown Report × Scene σ → Prop} {program : Program} {s : Scene σ}
    (hI : ∀ s level text, I s → I (s.say level text))
    (hE : ∀ s level text, E s → E (s.say level text)) (hs : I (s.begin program))
    (hstages : ∀ x ∈ stages st d program (s.begin program), I x.before →
      Leaves I E (perform st d x.statement x.before))
    (hdone : ∀ n t, I t → F (conclude st d (.underway n) t))
    (haborted : ∀ n t, I t → F (finish .aborted (.underway n) t))
    (hfailed : ∀ fault n t, E t →
      F (finish .failed { Report.underway n with error? := some fault } t))
    (hbroken : ∀ b t, E t → F (.error b, t)) : F (run st d program s) := by
  have hall := performAll_stages hI hE program 0 (s.begin program) hs hstages
  unfold run
  rcases hrun : performAll st d 0 program (s.begin program) with ⟨⟨outcome, n⟩, t⟩
  rw [hrun] at hall
  cases outcome with
  | fault fault => exact hfailed fault n t hall
  | broken b => exact hbroken b t hall
  | value all =>
    cases all with
    | false => exact haborted n t hall
    | true => exact hdone n t hall

end Stages

/-! ## Assertions on the device and the belief -/

/-- An effect reaches neither the device nor the belief about the arm. -/
theorem affect_rig (e : Effect) (s : Scene σ) :
    (affect e s).2.rig.device = s.rig.device ∧ (affect e s).2.rig.arm = s.rig.arm := by
  obtain ⟨rig, world⟩ := s
  cases world with
  | none => exact ⟨rfl, rfl⟩
  | some w =>
    simp only [affect]
    obtain ⟨result, after⟩ := e.apply w
    cases result with
    | error fault => exact ⟨rfl, rfl⟩
    | ok message =>
      cases message with
      | none => exact ⟨rfl, rfl⟩
      | some text => exact ⟨rig.device_say _ _, rig.arm_say _ _⟩

/-- A statement bears out what its plan ensures. -/
theorem meets_perform {statement : Statement} {s : Scene σ}
    (h : (st.plan s.rig.arm statement).Ensures d (fun _ => I) E s.rig.device s.rig.arm)
    (hIE : ∀ device arm, I device arm → E device arm) :
    (perform st d statement s).1.Meets (fun _ => I) E (perform st d statement s).2.rig := by
  obtain ⟨rig, world⟩ := s
  replace h : (st.plan rig.arm statement).Ensures d (fun _ => I) E rig.device rig.arm := h
  have hmeets := Plan.ensures_exec h
  simp only [perform]
  rcases hexec : (st.plan rig.arm statement).exec d rig with ⟨outcome, after⟩
  rw [hexec] at hmeets
  cases outcome with
  | fault fault => exact hmeets
  | broken b => exact hmeets
  | value effect =>
    -- the effect may still fail, with the arm where the plan has left it
    have hafter : I after.device after.arm := hmeets
    obtain ⟨hdevice, harm⟩ := affect_rig effect ⟨after, world⟩
    rw [← hdevice, ← harm] at hafter
    simp only
    rcases haffect : affect effect ⟨after, world⟩ with ⟨outcome, t⟩
    rw [haffect] at hafter
    cases outcome with
    | value u => exact hafter
    | fault fault => exact hIE _ _ hafter
    | broken b => exact hIE _ _ hafter

/-- A message does not reach what assertions speak of. -/
theorem keeps_say {A : σ → ArmState → Prop} (s : Scene σ) (level : Level) (text : String)
    (h : A s.rig.device s.rig.arm) :
    A (s.say level text).rig.device (s.say level text).rig.arm := by
  simp only [say, Rig.device_say, Rig.arm_say]
  exact h

theorem leaves_iff_meets {α : Type} (o : Outcome α) (s : Scene σ) :
    Leaves (fun s => I s.rig.device s.rig.arm) (fun s => E s.rig.device s.rig.arm) (o, s) ↔
      o.Meets (fun _ => I) E s.rig := by
  cases o <;> exact Iff.rfl

/-- A statement leaves what its plan ensures. -/
theorem leaves_perform {statement : Statement} {s : Scene σ}
    (h : (st.plan s.rig.arm statement).Ensures d (fun _ => I) E s.rig.device s.rig.arm)
    (hIE : ∀ device arm, I device arm → E device arm) :
    Leaves (fun s => I s.rig.device s.rig.arm) (fun s => E s.rig.device s.rig.arm)
      (perform st d statement s) :=
  (leaves_iff_meets _ _).mpr (meets_perform h hIE)

/-- What parking leaves holds at the end of a run. -/
theorem conclude_ensures (report : Report) {s : Scene σ}
    (h : st.park.Ensures d (fun _ => E) E s.rig.device s.rig.arm) :
    E (conclude st d report s).2.rig.device (conclude st d report s).2.rig.arm := by
  have hmeets := Plan.ensures_exec h
  unfold conclude
  rcases hexec : st.park.exec d s.rig with ⟨outcome, rig⟩
  rw [hexec] at hmeets
  cases outcome with
  | broken b => exact hmeets
  | value u =>
    simp only [finish, say, Rig.device_say, Rig.arm_say]
    exact hmeets
  | fault fault =>
    simp only [finish, say, Rig.device_say, Rig.arm_say]
    exact hmeets

/-- The beginning of a run reaches neither the device nor the belief about the arm. -/
theorem begin_rig (program : Program) (s : Scene σ) :
    (s.begin program).rig.device = s.rig.device ∧ (s.begin program).rig.arm = s.rig.arm := by
  simp only [begin, say, Rig.device_say, Rig.arm_say, and_self]

/-- What every statement keeps and parking leaves holds after a run. -/
theorem run_ensures
    (hstep : ∀ statement device arm, I device arm →
      (st.plan arm statement).Ensures d (fun _ => I) E device arm)
    (hIE : ∀ device arm, I device arm → E device arm)
    (hpark : ∀ device arm, I device arm → st.park.Ensures d (fun _ => E) E device arm)
    (program : Program) {s : Scene σ} (h : I s.rig.device s.rig.arm) :
    E (run st d program s).2.rig.device (run st d program s).2.rig.arm := by
  obtain ⟨hdevice, harm⟩ := s.begin_rig program
  refine run_stages (I := fun s => I s.rig.device s.rig.arm)
    (F := fun out => E out.2.rig.device out.2.rig.arm) keeps_say keeps_say (hdevice ▸ harm ▸ h)
    (fun x _ hx => leaves_perform (hstep x.statement _ _ hx) hIE) ?_ ?_ ?_ ?_
  · exact fun n t ht => conclude_ensures _ (hpark _ _ ht)
  · exact fun n t ht => hIE _ _ ht
  · exact fun fault n t ht => ht
  · exact fun b t ht => ht

end Scene

end BlockArm
