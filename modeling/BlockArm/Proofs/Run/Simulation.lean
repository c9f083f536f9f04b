/-
# Runs that simulate each other

Two rigs, on devices that may differ, are related in some way, and every single step of a plan is
answered alike and keeps them related.  Then so does every plan, every statement, and, where the
relation tells whether a stop was asked for, every run.

* `Scene.Related`, `Scene.perform_related`: a statement reaches the same blocks in the same way, once
  its plan has ended in the same way;
* `Simulates`: related rigs take single steps alike and stay related;
* `Simulates.exec`, `Simulates.perform`, `Simulates.performAll`: so they do with plans and with
  statements;
* `Simulates.run`, `Simulates.runSource`, `Simulates.home`: so they do with runs and drives home.
-/
import BlockArm.Run.Report

namespace BlockArm

variable {σ τ α : Type}

/-! ## Scenes with the same blocks -/

namespace Scene

variable {d : Device σ} {d' : Device τ} {R : Rig σ → Rig τ → Prop} {s : Scene σ} {s' : Scene τ}

/-- Two scenes on related rigs, with the same world. -/
structure Related (R : Rig σ → Rig τ → Prop) (s : Scene σ) (s' : Scene τ) : Prop where
  rig : R s.rig s'.rig
  world : s.world = s'.world

section Messages

variable (hsay : ∀ {r r'}, R r r' → ∀ level text, R (r.say level text) (r'.say level text))

include hsay

/-- An effect reaches the same blocks in the same way.  Of the rigs it only asks for a message. -/
theorem affect_related (e : Effect) (hs : Related R s s') :
    (affect e s).1 = (affect e s').1 ∧ Related R (affect e s).2 (affect e s').2 := by
  obtain ⟨rig, world⟩ := s
  obtain ⟨rig', world'⟩ := s'
  obtain ⟨hrig, hworld⟩ := hs
  replace hworld : world = world' := hworld
  subst hworld
  cases world with
  | none => exact ⟨rfl, hrig, rfl⟩
  | some w =>
    simp only [affect]
    obtain ⟨result, after⟩ := e.apply w
    cases result with
    | error fault => exact ⟨rfl, hrig, rfl⟩
    | ok message =>
      cases message with
      | none => exact ⟨rfl, hrig, rfl⟩
      | some text => exact ⟨rfl, hsay hrig _ _, rfl⟩

/-- A statement ends in the same way in related scenes, if its plan does. -/
theorem perform_related {st : Station} {statement : Statement} (harm : s.rig.arm = s'.rig.arm)
    (hworld : s.world = s'.world)
    (hexec : ((st.plan s'.rig.arm statement).exec d s.rig).1 =
        ((st.plan s'.rig.arm statement).exec d' s'.rig).1 ∧
      R ((st.plan s'.rig.arm statement).exec d s.rig).2
        ((st.plan s'.rig.arm statement).exec d' s'.rig).2) :
    (perform st d statement s).1 = (perform st d' statement s').1 ∧
      Related R (perform st d statement s).2 (perform st d' statement s').2 := by
  obtain ⟨rig, world⟩ := s
  obtain ⟨rig', world'⟩ := s'
  replace harm : rig.arm = rig'.arm := harm
  simp only [perform, harm]
  rcases hleft : (st.plan rig'.arm statement).exec d rig with ⟨outcome, after⟩
  rcases hright : (st.plan rig'.arm statement).exec d' rig' with ⟨outcome', after'⟩
  simp only [hleft, hright] at hexec
  obtain ⟨houtcome, hafter⟩ := hexec
  obtain rfl : outcome = outcome' := houtcome
  cases outcome with
  | value effect => exact affect_related hsay effect ⟨hafter, hworld⟩
  | fault fault => exact ⟨rfl, hafter, hworld⟩
  | broken b => exact ⟨rfl, hafter, hworld⟩

end Messages

end Scene

/-! ## Simulations -/

/-- Related rigs take every single step alike and stay related. -/
structure Simulates (d : Device σ) (d' : Device τ) (R : Rig σ → Rig τ → Prop) : Prop where
  arm_eq : ∀ {r r'}, R r r' → r.arm = r'.arm
  warnings_eq : ∀ {r r'}, R r r' → r.warnings = r'.warnings
  pose_eq : ∀ {r r'}, R r r' → d.pose r.device = d'.pose r'.device
  answer_eq : ∀ {r r'}, R r r' → ∀ c,
    (d.perform c r.device).1.answer = (d'.perform c r'.device).1.answer
  ask : ∀ {r r'}, R r r' → ∀ c, R (r.ask d c).2 (r'.ask d' c).2
  say : ∀ {r r'}, R r r' → ∀ level text, R (r.say level text) (r'.say level text)
  believe : ∀ {r r'}, R r r' → ∀ arm, R { r with arm } { r' with arm }
  record : ∀ {r r'}, R r r' → ∀ warnings, R { r with warnings } { r' with warnings }
  enter : ∀ {r r'}, R r r' → ∀ state, R { r with state } { r' with state }

namespace Simulates

open Scene (Related)

variable {d : Device σ} {d' : Device τ} {R : Rig σ → Rig τ → Prop} {r : Rig σ} {r' : Rig τ}
  {s : Scene σ} {s' : Scene τ} (h : Simulates d d' R)

include h

/-! ## Plans -/

theorem warn (hr : R r r') (warning : WristWarning) : R (r.warn warning) (r'.warn warning) := by
  have hsay := h.say hr .warn warning.message
  unfold Rig.warn
  simp only [h.warnings_eq hsay]
  exact h.record hsay _

/-- A plan ends in the same way on related rigs, and they are related afterwards. -/
theorem exec (p : Plan α) : ∀ {r : Rig σ} {r' : Rig τ}, R r r' →
    (p.exec d r).1 = (p.exec d' r').1 ∧ R (p.exec d r).2 (p.exec d' r').2 := by
  induction p with
  | done a => exact fun hr => ⟨rfl, hr⟩
  | fail fault => exact fun hr => ⟨rfl, hr⟩
  | broken b => exact fun hr => ⟨rfl, hr⟩
  | call c next ih =>
    intro r r' hr
    have hask := h.ask hr c
    simp only [Plan.exec, Rig.ask_fst, h.answer_eq hr c]
    cases (d'.perform c r'.device).1.answer with
    | done => exact ih () hask
    | failed message => exact ⟨rfl, hask⟩
    | crashed => exact ⟨rfl, hask⟩
  | locate next ih =>
    intro r r' hr
    simp only [Plan.exec, h.pose_eq hr]
    cases d'.pose r'.device with
    | ok pose => exact ih pose hr
    | error message => exact ⟨rfl, hr⟩
  | believe arm next ih => exact fun hr => ih (h.believe hr arm)
  | note level text next ih => exact fun hr => ih (h.say hr level text)
  | warn warning next ih => exact fun hr => ih (h.warn hr warning)

/-- So does a drive home. -/
theorem home (st : Station) (hr : R r r') :
    (Scene.home st d r).1 = (Scene.home st d' r').1 ∧
      R (Scene.home st d r).2 (Scene.home st d' r').2 := by
  unfold Scene.home
  rw [h.arm_eq hr]
  exact h.exec _ hr

/-! ## Statements -/

theorem sayIn (hs : Related R s s') (level : Level) (text : String) :
    Related R (s.say level text) (s'.say level text) :=
  ⟨h.say hs.rig level text, hs.world⟩

/-- A statement ends in the same way in related scenes. -/
theorem perform (st : Station) (statement : Statement) (hs : Related R s s') :
    (Scene.perform st d statement s).1 = (Scene.perform st d' statement s').1 ∧
      Related R (Scene.perform st d statement s).2 (Scene.perform st d' statement s').2 :=
  Scene.perform_related h.say (h.arm_eq hs.rig) hs.world (h.exec _ hs.rig)

section Stops

variable (hstop : ∀ {r : Rig σ} {r' : Rig τ}, R r r' → r.stop = r'.stop)

include hstop

/-- So do several statements, where the relation tells whether a stop was asked for. -/
theorem performAll (st : Station) (program : Program) :
    ∀ (n : Nat) {s : Scene σ} {s' : Scene τ}, Related R s s' →
      (Scene.performAll st d n program s).1 = (Scene.performAll st d' n program s').1 ∧
        Related R (Scene.performAll st d n program s).2
          (Scene.performAll st d' n program s').2 := by
  induction program with
  | nil => exact fun _ _ _ hs => ⟨rfl, hs⟩
  | cons statement rest ih =>
    intro n s s' hs
    have hfirst := h.perform st statement hs
    rw [Scene.performAll, Scene.performAll, hstop hs.rig]
    split
    · exact ⟨rfl, h.sayIn hs _ _⟩
    · rcases hleft : Scene.perform st d statement s with ⟨outcome, after⟩
      rcases hright : Scene.perform st d' statement s' with ⟨outcome', after'⟩
      rw [hleft, hright] at hfirst
      obtain ⟨houtcome, hafter⟩ := hfirst
      obtain rfl : outcome = outcome' := houtcome
      cases outcome with
      | value u => exact ih (n + 1) hafter
      | fault fault => exact ⟨rfl, h.sayIn hafter _ _⟩
      | broken b => exact ⟨rfl, hafter⟩

/-! ## Runs -/

omit hstop in
/-- The beginning of a run forgets the warnings of the run before it. -/
theorem begin (program : Program) (hs : Related R s s') :
    Related R (s.begin program) (s'.begin program) := by
  obtain ⟨rig, world⟩ := s
  obtain ⟨rig', world'⟩ := s'
  obtain ⟨hrig, hworld⟩ := hs
  replace hworld : world = world' := hworld
  subst hworld
  exact ⟨h.say (h.record (h.enter hrig .running) #[]) _ _, rfl⟩

omit hstop in
/-- Runs that end in the same way in related scenes are reported alike. -/
theorem finish (state : RunState) (report : Report) (hs : Related R s s') :
    (Scene.finish state report s).1 = (Scene.finish state report s').1 ∧
      Related R (Scene.finish state report s).2 (Scene.finish state report s').2 := by
  refine ⟨?_, h.enter hs.rig _, hs.world⟩
  simp only [Scene.finish, h.warnings_eq hs.rig]

omit hstop in
/-- Parking ends in the same way, with the same verdict. -/
theorem conclude (st : Station) (report : Report) (hs : Related R s s') :
    (Scene.conclude st d report s).1 = (Scene.conclude st d' report s').1 ∧
      Related R (Scene.conclude st d report s).2 (Scene.conclude st d' report s').2 := by
  have hexec := h.exec st.park hs.rig
  unfold Scene.conclude
  rcases hleft : st.park.exec d s.rig with ⟨outcome, rig⟩
  rcases hright : st.park.exec d' s'.rig with ⟨outcome', rig'⟩
  rw [hleft, hright] at hexec
  obtain ⟨houtcome, hrig⟩ := hexec
  obtain rfl : outcome = outcome' := houtcome
  have hafter : Related R { s with rig } { s' with rig := rig' } := ⟨hrig, hs.world⟩
  cases outcome with
  | value u =>
    simp only [hs.world] at hafter ⊢
    exact h.finish _ _ (h.sayIn hafter _ _)
  | fault fault => exact h.finish _ _ (h.sayIn hafter _ _)
  | broken b => exact ⟨rfl, hafter⟩

/-- A run of a program is reported alike in related scenes, which are related afterwards. -/
theorem run (st : Station) (program : Program) (hs : Related R s s') :
    (Scene.run st d program s).1 = (Scene.run st d' program s').1 ∧
      Related R (Scene.run st d program s).2 (Scene.run st d' program s').2 := by
  have hall := h.performAll hstop st program 0 (h.begin program hs)
  unfold Scene.run
  rcases hleft : Scene.performAll st d 0 program (s.begin program) with ⟨⟨outcome, n⟩, t⟩
  rcases hright : Scene.performAll st d' 0 program (s'.begin program) with ⟨⟨outcome', n'⟩, t'⟩
  rw [hleft, hright] at hall
  obtain ⟨hhalt, ht⟩ := hall
  obtain ⟨rfl, rfl⟩ := Scene.Halt.mk.inj hhalt
  cases outcome with
  | value all =>
    cases all with
    | true => exact h.conclude st _ ht
    | false => exact h.finish _ _ ht
  | fault fault => exact h.finish _ _ ht
  | broken b => exact ⟨rfl, ht⟩

/-- So is the run of a script, whether it reads or not. -/
theorem runSource (st : Station) (source : List Char) (hs : Related R s s') :
    (Scene.runSource st d source s).1 = (Scene.runSource st d' source s').1 ∧
      Related R (Scene.runSource st d source s).2 (Scene.runSource st d' source s').2 := by
  have hreject : ∀ fault, (Scene.reject fault s).1 = (Scene.reject fault s').1 ∧
      Related R (Scene.reject fault s).2 (Scene.reject fault s').2 := fun fault =>
    ⟨rfl, h.enter (h.say hs.rig _ _) _, hs.world⟩
  unfold Scene.runSource
  cases Script.parse source with
  | error fault => exact hreject fault
  | ok program =>
    cases program with
    | nil => exact hreject .emptyScript
    | cons first rest => exact h.run hstop st (first :: rest) hs

end Stops

end Simulates

end BlockArm
