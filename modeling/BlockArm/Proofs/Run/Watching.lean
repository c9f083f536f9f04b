/-
# The blocks only watch

Nothing of the block world reaches the arm.  A run in a scene with blocks makes the calls of the
same run without any, and leaves the arm as that does, until an effect on the blocks fails; that
ends the run, and no call is made any more.

* `Fault.isOfBlocks`: the faults that come from the blocks;
* `Scene.calls`: the calls of a run, with their answers;
* `Scene.Beside`: a scene with blocks and one without, in which the arm does the same;
* `Scene.perform_beside`, `Scene.performAll_beside`: statements keep them so, or the blocks fail;
* `Scene.calls_watched`: the calls of a run with blocks begin those of the run without.
-/
import BlockArm.Proofs.Run.Applied
import BlockArm.Proofs.Run.Endings
import BlockArm.Proofs.Run.Logging
import BlockArm.Proofs.Run.Logic

namespace BlockArm

variable {σ α : Type}

/-! ## Faults of the blocks -/

/-- Whether a fault comes from the blocks: there was nothing to grip or no room in the gripper,
nothing to release or to turn, no support or no room. -/
def Fault.isOfBlocks : Fault → Bool
  | emptyGrip _ | gripperBusy | notHolding | midAirRelease _ | cellOccupied _ => true
  | _ => false

/-- A block that cannot be laid down has no room. -/
theorem World.isOfBlocks_of_lay {w : World} {b : Block} {fault : Fault}
    (h : w.lay b = .error fault) : fault.isOfBlocks = true := by
  unfold lay at h
  split at h
  · obtain rfl := Except.error.inj h
    rfl
  · simp at h

theorem World.isOfBlocks_of_grip {w : World} {c : Cell} {fault : Fault}
    (h : (w.grip c).1 = .error fault) : fault.isOfBlocks = true := by
  unfold grip at h
  split at h
  · obtain rfl := Except.error.inj h
    rfl
  · split at h
    · obtain rfl := Except.error.inj h
      rfl
    · simp at h

theorem World.isOfBlocks_of_release {w : World} {c : Cell} {fault : Fault}
    (h : (w.release c).1 = .error fault) : fault.isOfBlocks = true := by
  unfold release at h
  split at h
  · obtain rfl := Except.error.inj h
    rfl
  · next held _ =>
    dsimp only at h
    generalize held.moveTo _ = placed at h
    split at h
    · obtain rfl := Except.error.inj h
      rfl
    · split at h
      · obtain rfl := Except.error.inj h
        rfl
      · split at h
        · next hlay =>
          obtain rfl := Except.error.inj h
          exact isOfBlocks_of_lay hlay
        · simp at h

theorem World.isOfBlocks_of_turnHeld {w : World} {degrees : Int32} {fault : Fault}
    (h : (w.turnHeld degrees).1 = .error fault) : fault.isOfBlocks = true := by
  unfold turnHeld at h
  split at h
  · obtain rfl := Except.error.inj h
    rfl
  · simp at h

/-- An effect that fails does so with a fault of the blocks. -/
theorem Effect.isOfBlocks_of_apply {e : Effect} {w : World} {fault : Fault}
    (h : (e.apply w).1 = .error fault) : fault.isOfBlocks = true := by
  cases e with
  | grip c =>
    have hgrip : ∀ cause, (w.grip c).1 = .error cause → cause.isOfBlocks = true :=
      fun _ => World.isOfBlocks_of_grip
    rw [apply] at h
    split at h <;> simp_all
  | release c =>
    have hrelease : ∀ cause, (w.release c).1 = .error cause → cause.isOfBlocks = true :=
      fun _ => World.isOfBlocks_of_release
    rw [apply] at h
    split at h <;> simp_all
  | turn degrees =>
    have hturn : ∀ cause, (w.turnHeld degrees).1 = .error cause → cause.isOfBlocks = true :=
      fun _ => World.isOfBlocks_of_turnHeld
    rw [apply] at h
    split at h
    · split at h <;> simp_all
    · simp at h

/-! ## Traces grow -/

/-- A plan only adds to the trace. -/
theorem Plan.ensures_suffix (p : Plan α) (d : Device σ) {t : Trace} {w : Logged σ} (arm : ArmState)
    (h : t <:+ w.trace) : p.Ensures d.logged (fun _ w _ => t <:+ w.trace) (fun w _ => t <:+ w.trace)
      w arm := by
  have hextends : ∀ w' : Logged σ, w.Extends (fun _ => false) w' → t <:+ w'.trace := by
    rintro w' ⟨later, htrace, -⟩
    rw [htrace]
    exact h.trans (List.suffix_append later w.trace)
  exact (p.avoids_nothing.ensures_extends d arm (.refl _ w)).mono (fun _ w' _ => hextends w')
    fun w' _ => hextends w'

namespace Scene

/-- The calls of a run with their answers, the earliest first. -/
def calls (st : Station) (d : Device σ) (program : Program) (s : Scene σ) :
    List (Call × Answer) :=
  (run st d.logged program s.logged).2.rig.device.trace.reverse

variable {st : Station} {d : Device σ} {t : Trace}

/-- The statements of a run only add to the trace. -/
theorem suffix_performAll (program : Program) (n : Nat) {s : Scene (Logged σ)}
    (h : t <:+ s.rig.device.trace) :
    t <:+ (performAll st d.logged n program s).2.rig.device.trace := by
  let longer : Scene (Logged σ) → Prop := fun x => t <:+ x.rig.device.trace
  have hsay : ∀ x level text, longer x → longer (x.say level text) := by
    intro x level text hx
    simpa only [longer, say, Rig.device_say] using hx
  have hall := performAll_stages hsay hsay program n s h fun x _ hx =>
    leaves_perform (Plan.ensures_suffix (st.plan x.before.rig.arm x.statement) d _ hx)
      fun _ _ h => h
  rcases hrun : performAll st d.logged n program s with ⟨⟨outcome, m⟩, u⟩
  rw [hrun] at hall
  cases outcome <;> exact hall

/-- So does what comes after them. -/
theorem suffix_conclude (report : Report) {s : Scene (Logged σ)}
    (h : t <:+ s.rig.device.trace) : t <:+ (conclude st d.logged report s).2.rig.device.trace :=
  conclude_ensures (E := fun (w : Logged σ) _ => t <:+ w.trace) report
    (Plan.ensures_suffix st.park d _ h)

/-! ## With and without blocks -/

/-- The arm does the same in two scenes, one with blocks and one without. -/
structure Beside (s s' : Scene σ) : Prop where
  rig : s.rig.Agrees s'.rig
  watched : s.world.isSome = true
  free : s'.world = none

/-- An effect on the blocks does not reach the rig.  Where it fails, it is not missed. -/
theorem affect_beside (e : Effect) {s s' : Scene σ} (h : s.Beside s') :
    (affect e s').1 = .value () ∧
    ((affect e s).1 = .value () ∧ (affect e s).2.Beside (affect e s').2 ∨
      ∃ fault t, affect e s = (.fault fault, t) ∧ fault.isOfBlocks = true ∧
        t.rig.Agrees (affect e s').2.rig) := by
  obtain ⟨rig, world⟩ := s
  obtain ⟨rig', world'⟩ := s'
  obtain ⟨hrig, hwatched, hfree⟩ := h
  obtain rfl : world' = none := hfree
  obtain ⟨w, rfl⟩ := Option.isSome_iff_exists.mp hwatched
  refine ⟨rfl, ?_⟩
  rcases happly : e.apply w with ⟨result, after⟩
  simp only [affect, happly]
  cases result with
  | error fault =>
    have hblocks := Effect.isOfBlocks_of_apply (congrArg Prod.fst happly)
    exact .inr ⟨fault, _, rfl, hblocks, hrig⟩
  | ok message =>
    cases message with
    | none => exact .inl ⟨rfl, hrig, rfl, rfl⟩
    | some text => exact .inl ⟨rfl, (Rig.say_agrees _ _ _).trans hrig, rfl, rfl⟩

/-- A statement ends in the same way with blocks and without, or the blocks fail. -/
theorem perform_beside (st : Station) (d : Device σ) (statement : Statement) {s s' : Scene σ}
    (h : s.Beside s') :
    (perform st d statement s).1 = (perform st d statement s').1 ∧
      (perform st d statement s).2.Beside (perform st d statement s').2 ∨
    (perform st d statement s').1 = .value () ∧
      ∃ fault t, perform st d statement s = (.fault fault, t) ∧ fault.isOfBlocks = true ∧
        t.rig.Agrees (perform st d statement s').2.rig := by
  obtain ⟨rig, world⟩ := s
  obtain ⟨rig', world'⟩ := s'
  obtain ⟨hrig, hwatched, hfree⟩ := h
  replace hrig : rig.Agrees rig' := hrig
  have harm := hrig.arm
  have hexec := Plan.exec_agrees d (st.plan rig'.arm statement) hrig
  simp only [perform, harm]
  rcases h₁ : (st.plan rig'.arm statement).exec d rig with ⟨outcome, after⟩
  rcases h₂ : (st.plan rig'.arm statement).exec d rig' with ⟨outcome', after'⟩
  rw [h₁, h₂] at hexec
  obtain ⟨houtcome, hafter⟩ := hexec
  obtain rfl : outcome = outcome' := houtcome
  cases outcome with
  | fault fault => exact .inl ⟨rfl, hafter, hwatched, hfree⟩
  | broken b => exact .inl ⟨rfl, hafter, hwatched, hfree⟩
  | value effect =>
    have hbeside : Beside ⟨after, world⟩ ⟨after', world'⟩ := ⟨hafter, hwatched, hfree⟩
    obtain ⟨hvalue, hsame | hfails⟩ := affect_beside effect hbeside
    · exact .inl ⟨hsame.1.trans hvalue.symm, hsame.2⟩
    · exact .inr ⟨hvalue, hfails⟩

theorem Beside.say {s s' : Scene σ} (h : s.Beside s') (level level' : Level) (text text' : String) :
    (s.say level text).Beside (s'.say level' text') where
  rig := ((Rig.say_agrees _ _ _).trans h.rig).trans (Rig.say_agrees _ _ _).symm
  watched := h.watched
  free := h.free

/-- The statements of a run end in the same way with blocks and without, or the blocks fail in one
of them, and all calls made until then are made without blocks, too. -/
theorem performAll_beside (st : Station) (d : Device σ) (program : Program) :
    ∀ (n : Nat) {s s' : Scene (Logged σ)}, s.Beside s' →
      (performAll st d.logged n program s).1 = (performAll st d.logged n program s').1 ∧
        (performAll st d.logged n program s).2.Beside (performAll st d.logged n program s').2 ∨
      ∃ fault m t, performAll st d.logged n program s = (⟨.fault fault, m⟩, t) ∧
        fault.isOfBlocks = true ∧
        t.rig.device.trace <:+ (performAll st d.logged n program s').2.rig.device.trace := by
  induction program with
  | nil => exact fun n _ _ h => .inl ⟨rfl, h⟩
  | cons statement rest ih =>
    intro n s s' h
    rw [performAll, performAll, h.rig.stop]
    split
    · exact .inl ⟨rfl, h.say _ _ _ _⟩
    · rcases h₁ : perform st d.logged statement s with ⟨outcome, after⟩
      rcases h₂ : perform st d.logged statement s' with ⟨outcome', after'⟩
      have hperform := perform_beside st d.logged statement h
      rw [h₁, h₂] at hperform
      rcases hperform with ⟨houtcome, hafter⟩ | ⟨hvalue, fault, t, hfails, hblocks, hrig⟩
      · obtain rfl : outcome = outcome' := houtcome
        cases outcome with
        | value u => exact ih (n + 1) hafter
        | fault fault => exact .inl ⟨rfl, hafter.say _ _ _ _⟩
        | broken b => exact .inl ⟨rfl, hafter⟩
      · -- the run without blocks goes on from where the other one has failed
        obtain rfl : outcome' = .value () := hvalue
        obtain ⟨rfl, rfl⟩ := Prod.mk.inj hfails
        refine .inr ⟨fault, n, _, rfl, hblocks, ?_⟩
        rw [say, Rig.device_say]
        exact suffix_performAll rest (n + 1) (hrig.device ▸ List.suffix_refl _)

/-! ## Runs -/

theorem begin_beside (program : Program) (rig : Rig σ) (w : World) :
    (begin program ⟨rig, some w⟩).Beside (begin program ⟨rig, none⟩) where
  rig := (begin_agrees program ⟨rig, some w⟩).rig.trans (begin_agrees program ⟨rig, none⟩).rig.symm
  watched := rfl
  free := rfl

/-- Ending a run changes the state and nothing else of the rig. -/
theorem finish_beside (state state' : RunState) (report report' : Report) {s s' : Scene σ}
    (h : s.Beside s') :
    (finish state report s).2.rig.Agrees (finish state' report' s').2.rig :=
  ⟨h.rig.device, h.rig.stop, h.rig.arm⟩

/-- Parking does the same with blocks and without. -/
theorem conclude_beside (st : Station) (d : Device σ) (report : Report) {s s' : Scene σ}
    (h : s.Beside s') : (conclude st d report s).2.rig.Agrees (conclude st d report s').2.rig := by
  have hexec := Plan.exec_agrees d st.park h.rig
  unfold conclude
  rcases h₁ : st.park.exec d s.rig with ⟨outcome, after⟩
  rcases h₂ : st.park.exec d s'.rig with ⟨outcome', after'⟩
  rw [h₁, h₂] at hexec
  obtain ⟨houtcome, hafter⟩ := hexec
  obtain rfl : outcome = outcome' := houtcome
  have hbeside : Beside ⟨after, s.world⟩ ⟨after', s'.world⟩ := ⟨hafter, h.watched, h.free⟩
  cases outcome with
  | broken b => exact hafter
  | value u => exact finish_beside _ _ _ _ (hbeside.say _ _ _ _)
  | fault fault => exact finish_beside _ _ _ _ (hbeside.say _ _ _ _)

/-- A run agrees with the same run without blocks, or the blocks fail in it, and then its calls are
the first ones of the other run. -/
theorem run_beside (st : Station) (d : Device σ) (program : Program) (rig : Rig (Logged σ))
    (w : World) :
    (run st d.logged program ⟨rig, some w⟩).2.rig.Agrees
      (run st d.logged program ⟨rig, none⟩).2.rig ∨
    (∃ report fault, (run st d.logged program ⟨rig, some w⟩).1 = .ok report ∧
      report.ending? = some (.failed fault) ∧ fault.isOfBlocks = true) ∧
    (run st d.logged program ⟨rig, some w⟩).2.rig.device.trace <:+
      (run st d.logged program ⟨rig, none⟩).2.rig.device.trace := by
  have hall := performAll_beside st d program 0 (begin_beside program rig w)
  unfold run
  rcases h₁ : performAll st d.logged 0 program (begin program ⟨rig, some w⟩) with ⟨⟨outcome, n⟩, t⟩
  rcases h₂ : performAll st d.logged 0 program (begin program ⟨rig, none⟩) with ⟨⟨outcome', n'⟩, t'⟩
  rw [h₁, h₂] at hall
  rcases hall with ⟨hhalt, hbeside⟩ | ⟨fault, m, u, hfails, hblocks, hsuffix⟩
  · obtain ⟨rfl, rfl⟩ := Halt.mk.inj hhalt
    refine .inl ?_
    cases outcome with
    | fault fault => exact finish_beside _ _ _ _ hbeside
    | broken b => exact hbeside.rig
    | value all =>
      cases all with
      | true => exact conclude_beside st d.logged _ hbeside
      | false => exact finish_beside _ _ _ _ hbeside
  · obtain ⟨hhalt, rfl⟩ := Prod.mk.inj hfails
    obtain ⟨rfl, rfl⟩ := Halt.mk.inj hhalt
    refine .inr ⟨⟨_, fault, rfl, rfl, hblocks⟩, ?_⟩
    -- the other run may park
    cases outcome' with
    | fault fault => exact hsuffix
    | broken b => exact hsuffix
    | value all =>
      cases all with
      | true => exact suffix_conclude _ hsuffix
      | false => exact hsuffix

/-- **The blocks only watch.**  The calls of a run with blocks are the first calls of the same run
without blocks, with the same answers.  If the run is not ended by a fault of the blocks, its calls
are all of them, and it leaves the device, the stop request and the belief about the arm as the
other run does.  Stops may be asked for before the run and at any call. -/
theorem calls_watched (st : Station) (d : Device σ) (program : Program) (rig : Rig σ) (w : World) :
    calls st d program ⟨rig, some w⟩ <+: calls st d program ⟨rig, none⟩ ∧
    ((∃ report fault, (run st d program ⟨rig, some w⟩).1 = .ok report ∧
        report.ending? = some (.failed fault) ∧ fault.isOfBlocks = true) ∨
      calls st d program ⟨rig, some w⟩ = calls st d program ⟨rig, none⟩ ∧
      (run st d program ⟨rig, some w⟩).2.rig.Agrees (run st d program ⟨rig, none⟩).2.rig) := by
  -- the runs themselves do what the logged ones do
  rw [run_logged st d program ⟨rig, some w⟩, run_logged st d program ⟨rig, none⟩]
  rcases run_beside st d program rig.logged w with hagrees | ⟨hfails, hsuffix⟩
  · have hcalls : calls st d program ⟨rig, some w⟩ = calls st d program ⟨rig, none⟩ :=
      congrArg (fun device : Logged σ => device.trace.reverse) hagrees.device
    refine ⟨hcalls ▸ List.prefix_refl _, .inr ⟨hcalls, ?_⟩⟩
    exact ⟨congrArg Logged.device hagrees.device, hagrees.stop, hagrees.arm⟩
  · exact ⟨List.reverse_prefix.mpr hsuffix, .inl hfails⟩

end Scene

end BlockArm
