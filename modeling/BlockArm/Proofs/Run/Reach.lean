/-
# Runs within reach

On a device that does every call, with nobody to stop it, a run is decided by the geometry, by the
turns that 32 bits hold, and by the blocks.  It makes no difference which such device it is, so that a
run can be followed on the obliging one, statement by statement.

* `Scene.stop_runSource`: a run is not stopped where nobody asks for it;
* `Plan.Leads`: what a plan leads to, unless a point is out of reach or a turn does not fit;
* `Station.leads_move`, `Station.leads_lift`, `Station.leads_grip`, `Station.leads_release`: single
  commands;
* `Scene.Carries`: what statements lead to, unless a point is out of reach or a turn does not fit;
* `Scene.runSource_of_carries`: what is therefore reported, whatever the device.
-/
import BlockArm.Proofs.Run.Clearance
import BlockArm.Proofs.Run.Warnings
import BlockArm.Proofs.Supervisor.Independence

namespace BlockArm

variable {σ α β : Type}

/-! ## Devices that do every call -/

namespace Device

/-- A reliable device answers like the obliging one. -/
theorem mimics_obliging (d : Device σ) : d.Mimics obliging fun s _ => d.Reliable s :=
  fun c _ _ h => ⟨h.answer c, h.perform c⟩

/-- Nobody asks the recording device for a stop. -/
theorem undisturbed_recorder : recorder.Undisturbed := by
  intro c r
  show (r.perform c).1.stop = false
  unfold Recorder.perform
  split <;> rfl

end Device

namespace Scene

variable {d : Device σ}

/-- Where nobody asks for a stop, a statement is carried out without one. -/
theorem stop_perform (st : Station) (h : d.Undisturbed) (statement : Statement) (s : Scene σ) :
    (perform st d statement s).2.rig.stop = s.rig.stop := by
  obtain ⟨rig, world⟩ := s
  have hplan := Plan.stop_exec h (st.plan rig.arm statement) rig
  simp only [perform]
  rcases hexec : (st.plan rig.arm statement).exec d rig with ⟨outcome, after⟩
  rw [hexec] at hplan
  cases outcome with
  | fault fault => exact hplan
  | broken b => exact hplan
  | value effect =>
    cases world with
    | none => exact hplan
    | some w =>
      simp only [affect]
      rcases effect.apply w with ⟨fault | ⟨⟩ | text, w'⟩
      · exact hplan
      · exact hplan
      · exact (Rig.stop_say _ _ _).trans hplan

/-- So is a whole script. -/
theorem stop_runSource (st : Station) (h : d.Undisturbed) (source : List Char) {s : Scene σ}
    (hs : s.rig.stop = false) : (runSource st d source s).2.rig.stop = false := by
  have hsay : ∀ (t : Scene σ) level text, t.rig.stop = false → (t.say level text).rig.stop = false :=
    fun t level text ht => (t.say_agrees level text).rig.stop.trans ht
  rcases runSource_cases st d source s with ⟨fault, hreject⟩ | hrun
  · rw [hreject]
    exact hsay s _ _ hs
  · rw [hrun]
    refine run_stages (I := fun t => t.rig.stop = false) (E := fun t => t.rig.stop = false)
      (F := fun out => out.2.rig.stop = false) hsay hsay ((begin_agrees _ s).rig.stop.trans hs) ?_ ?_
      (fun n t ht => ht) (fun fault n t ht => ht) fun b t ht => ht
    · intro x _ hx
      have hstop := (stop_perform st h x.statement x.before).trans hx
      rcases hperform : perform st d x.statement x.before with ⟨outcome, after⟩
      rw [hperform] at hstop
      cases outcome <;> exact hstop
    · intro n t ht
      have hpark := (Plan.stop_exec h st.park t.rig).trans ht
      unfold conclude
      rcases hexec : st.park.exec d t.rig with ⟨outcome, rig⟩
      rw [hexec] at hpark
      cases outcome with
      | value u => exact hsay { t with rig } _ _ hpark
      | fault fault => exact hsay { t with rig } _ _ hpark
      | broken b => exact hpark

end Scene

/-! ## Plans within reach -/

/-- Whether a fault says that a point is out of reach. -/
def Fault.isOfReach : Fault → Bool
  | unreachablePosition .. | unreachableHeight _ => true
  | _ => false

/-- What is believed about an arm that nobody stops, and the warnings so far. -/
structure Rig.Stands (arm : ArmState) (warnings : List WristWarning) (r : Rig Unit) : Prop where
  stop : r.stop = false
  arm_eq : r.arm = arm
  warnings_eq : r.warnings.toList = warnings

theorem Rig.Stands.say {r : Rig Unit} {arm : ArmState} {warnings : List WristWarning}
    (h : r.Stands arm warnings) (level : Level) (text : String) :
    (r.say level text).Stands arm warnings where
  stop := (r.stop_say level text).trans h.stop
  arm_eq := (r.arm_say level text).trans h.arm_eq
  warnings_eq := (r.warnings_say level text).symm ▸ h.warnings_eq

namespace Plan

/-- On the obliging device the plan leads to `Q`.  Only a point out of reach can end it early, and then
`R` does not hold, and only an overflow can break it off, and then `F` does not hold. -/
def Leads (R F : Prop) (p : Plan α) (Q : α → Rig Unit → Prop) (r : Rig Unit) : Prop :=
  match p.exec .obliging r with
  | (.value a, r) => Q a r
  | (.fault fault, _) => fault.isOfReach = true ∧ ¬ R
  | (.broken b, _) => b = .overflow ∧ ¬ F

variable {R F : Prop} {r : Rig Unit} {arm : ArmState} {warnings : List WristWarning}

theorem leads_bind {p : Plan α} {f : α → Plan β} {Q : β → Rig Unit → Prop}
    (h : p.Leads R F (fun a => (f a).Leads R F Q) r) : (p.bind f).Leads R F Q r := by
  unfold Leads at h ⊢
  rw [exec_bind]
  rcases hexec : p.exec .obliging r with ⟨outcome, after⟩
  rw [hexec] at h
  cases outcome <;> exact h

/-- A call changes nothing on the obliging device. -/
theorem leads_act {Q : Unit → Rig Unit → Prop} (c : Call) (h : Q () r) : (act c).Leads R F Q r := by
  have hasked : (r.ask .obliging c).2 = r := by
    rw [Rig.ask_snd]
    show { r with device := (), stop := r.stop || false } = r
    rw [Bool.or_false]
  simp only [Leads, act, exec, Rig.ask_fst, hasked]
  exact h

theorem leads_assume {Q : Unit → Rig Unit → Prop} (h : Q () { r with arm }) :
    (assume arm).Leads R F Q r := h

theorem leads_ofExcept {Q : α → Rig Unit → Prop} {e : Except Fault α}
    (hfault : ∀ fault, e = .error fault → fault.isOfReach = true) (hreach : R → e.isOk = true)
    (h : ∀ a, e = .ok a → Q a r) : (ofExcept e).Leads R F Q r := by
  cases e with
  | ok a => exact h a rfl
  | error fault => exact ⟨hfault fault rfl, fun hR => absurd (hreach hR) Bool.false_ne_true⟩

/-- A number that its type does not hold is an overflow. -/
theorem leads_checked {Q : α → Rig Unit → Prop} {o : Option α} (hfits : F → o ≠ none)
    (h : ∀ a, o = some a → Q a r) : (checked o).Leads R F Q r := by
  cases o with
  | some a => exact h a rfl
  | none => exact ⟨rfl, fun hF => hfits hF rfl⟩

theorem leads_warnOf {Q : Unit → Rig Unit → Prop} {setting : WristSetting Float}
    (hr : r.Stands arm warnings)
    (h : ∀ r' : Rig Unit, r'.Stands arm (warnings ++ setting.warning?.toList) → Q () r') :
    (warnOf setting).Leads R F Q r := by
  obtain ⟨r', hexec, -, harm, hwarnings⟩ := exec_warnOf .obliging setting r
  have hstop := stop_exec Device.undisturbed_obliging (warnOf setting) r
  rw [hexec] at hstop
  simp only [Leads, hexec]
  exact h r' ⟨hstop.trans hr.stop, harm.trans hr.arm_eq, by rw [hwarnings, hr.warnings_eq]⟩

end Plan

/-! ## Commands within reach -/

/-- A column is refused only because it is out of reach. -/
theorem Workspace.isOfReach_of_spotAt {w : Workspace} {x y : Int32} {z : Float} {fault : Fault}
    (h : w.spotAt x y z = .error fault) : fault.isOfReach = true := by
  simp only [spotAt] at h
  split at h
  · simp at h
  · obtain rfl := Except.error.inj h
    rfl

/-- So is a height. -/
theorem Workspace.isOfReach_of_heightAt {w : Workspace} {z : Int32} {spot : Spot} {fault : Fault}
    (h : w.heightAt z spot = .error fault) : fault.isOfReach = true := by
  simp only [heightAt] at h
  split at h
  · obtain rfl := Except.error.inj h
    rfl
  · simp at h

namespace Station

open Plan

variable {st : Station} {R F : Prop} {r : Rig Unit} {arm : ArmState} {warnings : List WristWarning}

/-- So is the home cell. -/
theorem isOfReach_of_homePose {fault : Fault} (h : st.homePose = .error fault) :
    fault.isOfReach = true := by
  simp only [homePose] at h
  split at h
  · next hspot =>
    obtain rfl := Except.error.inj h
    exact Workspace.isOfReach_of_spotAt hspot
  · split at h
    · next hheight =>
      obtain rfl := Except.error.inj h
      exact Workspace.isOfReach_of_heightAt hheight
    · simp at h

/-- The wrist setting with which an arm moves above another column. -/
def settingTo (st : Station) (arm : ArmState) (x y : Int32) : WristSetting Float :=
  st.workspace.follow arm.wrist arm.pose.spot (st.workspace.center x y)

/-- The belief about an arm after a move above another column. -/
def armAbove (st : Station) (arm : ArmState) (x y : Int32) : ArmState where
  cell := { arm.cell with x, y }
  pose := .above (st.workspace.center x y) arm.pose.z
  wrist := (st.settingTo arm x y).angle

/-- The belief about an arm after a change of its height. -/
def armAt (st : Station) (arm : ArmState) (z : Int32) : ArmState :=
  { arm with cell := { arm.cell with z }, pose := { arm.pose with z := st.workspace.height z } }

/-- The belief about an arm that has gripped. -/
def armGripping (st : Station) (arm : ArmState) : ArmState :=
  { arm with wrist := st.workspace.gripAngle arm.pose.spot }

/-- The move turns a held block as far as the wrist is off, if 32 bits hold that. -/
theorem leads_move (hr : r.Stands arm warnings) (x y : Int32)
    (hreach : R → (st.workspace.spotAt x y arm.pose.z).isOk = true)
    (hfits : F → (st.settingTo arm x y).drift? ≠ none) :
    (st.move arm x y).Leads R F
      (fun effect r' =>
        (∃ drift, (st.settingTo arm x y).drift? = some drift ∧ effect = .turn drift) ∧
        r'.Stands (st.armAbove arm x y)
          (warnings ++ (st.settingTo arm x y).warning?.toList)) r := by
  unfold move travel
  rw [bind_eq]
  refine leads_bind ?_
  rw [bind_eq]
  refine leads_bind (leads_ofExcept (fun _ => Workspace.isOfReach_of_spotAt) hreach ?_)
  intro spot hspot
  obtain ⟨rfl, -⟩ := spotAt_eq_ok hspot
  refine leads_bind (leads_act _ (leads_bind (leads_act _ (leads_bind (leads_assume ?_)))))
  refine (?_ : ((warnOf (st.settingTo arm x y)).bind _).Leads R F _ _)
  refine leads_bind (leads_warnOf ⟨hr.stop, rfl, hr.warnings_eq⟩ fun r' hr' => ?_)
  exact leads_bind (leads_checked hfits fun drift hdrift => ⟨⟨drift, hdrift, rfl⟩, hr'⟩)

theorem leads_lift (hr : r.Stands arm warnings) (z : Int32)
    (hreach : R → (st.workspace.heightAt z arm.pose.spot).isOk = true) :
    (st.lift arm z).Leads R F
      (fun effect r' => effect = .turn 0 ∧ r'.Stands (st.armAt arm z) warnings) r := by
  unfold lift
  rw [bind_eq]
  refine leads_bind (leads_ofExcept (fun _ => Workspace.isOfReach_of_heightAt) hreach ?_)
  intro height hheight
  obtain ⟨rfl, -⟩ := heightAt_eq_ok hheight
  refine leads_bind (leads_act _ (leads_bind (leads_assume ?_)))
  exact ⟨rfl, hr.stop, rfl, hr.warnings_eq⟩

theorem leads_grip (hr : r.Stands arm warnings) : (st.grip arm).Leads R F
    (fun effect r' => effect = .grip arm.cell ∧ r'.Stands (st.armGripping arm) warnings) r := by
  unfold grip
  -- the wrist, the dip, the pump, and the way back up
  refine leads_bind (leads_act _ (leads_bind (leads_assume ?_)))
  refine leads_bind (leads_act _ (leads_bind (leads_act _ (leads_bind (leads_act _ ?_)))))
  exact ⟨rfl, hr.stop, rfl, hr.warnings_eq⟩

theorem leads_release (hr : r.Stands arm warnings) : (release arm).Leads R F
    (fun effect r' => effect = .release arm.cell ∧ r'.Stands arm warnings) r := by
  unfold release
  exact leads_bind (leads_act _ ⟨rfl, hr⟩)

theorem leads_park (hr : r.Stands arm warnings) (hreach : R → st.homePose.isOk = true) :
    st.park.Leads R F (fun _ r' => r'.warnings.toList = warnings) r := by
  unfold park
  rw [bind_eq]
  refine leads_bind (leads_ofExcept (fun _ => isOfReach_of_homePose) hreach fun pose _ => ?_)
  refine leads_bind (leads_act _ (leads_bind (leads_act _ (leads_bind (leads_act _ ?_)))))
  exact hr.warnings_eq

end Station

/-! ## Statements within reach -/

/-- An effect that turns by nothing reaches no block. -/
theorem World.apply_turn_zero (w : World) : (Effect.turn 0).apply w = (.ok none, w) := by
  rw [Effect.apply, if_neg fun h => h.1 rfl]

/-- Neither does a turn while no block is held. -/
theorem World.apply_turn_empty {w : World} (h : w.held = none) (degrees : Int32) :
    (Effect.turn degrees).apply w = (.ok none, w) := by
  have hempty : w.isHolding = false := by rw [isHolding, h, Option.isSome_none]
  rw [Effect.apply, hempty, if_neg fun h => absurd h.2 Bool.false_ne_true]

namespace Scene

variable {st : Station} {R F : Prop} {arm arm' : ArmState} {warnings warnings' : List WristWarning}
  {w w' : World} {s : Scene Unit}

/-- Where a scene stands in a run that nobody stops. -/
structure Stands (arm : ArmState) (warnings : List WristWarning) (w : World) (s : Scene Unit) :
    Prop where
  rig : s.rig.Stands arm warnings
  world_eq : s.world = some w

/-- On the obliging device the statements are carried out and lead to `Q`.  Only a point out of reach
can end them early, and then `R` does not hold, and only an overflow can break them off, and then `F`
does not hold. -/
def Carries (st : Station) (R F : Prop) (n : Nat) (program : Program)
    (Q : Nat → Scene Unit → Prop) (s : Scene Unit) : Prop :=
  match performAll st .obliging n program s with
  | (⟨.value true, m⟩, t) => Q m t
  | (⟨.value false, _⟩, _) => False
  | (⟨.fault fault, _⟩, _) => fault.isOfReach = true ∧ ¬ R
  | (⟨.broken b, _⟩, _) => b = .overflow ∧ ¬ F

/-- A statement is carried out before the others, and its effect succeeds. -/
theorem carries_cons {line n : Nat} {command : Command} {rest : Program}
    {Q : Nat → Scene Unit → Prop} {P : Effect → Prop} (hs : s.Stands arm warnings w)
    (hplan : ∀ r : Rig Unit, r.Stands arm warnings → (st.commandPlan arm line command).Leads R F
      (fun effect r' => P effect ∧ r'.Stands arm' warnings') r)
    (hrest : ∀ effect, P effect → ∃ message w', effect.apply w = (.ok message, w') ∧
      ∀ t : Scene Unit, t.Stands arm' warnings' w' → Carries st R F (n + 1) rest Q t) :
    Carries st R F n (⟨line, command⟩ :: rest) Q s := by
  obtain ⟨rig, world⟩ := s
  obtain ⟨hrig, rfl⟩ := hs
  replace hrig : rig.Stands arm warnings := hrig
  obtain rfl := hrig.arm_eq
  -- the statement is logged before its steps
  have hleads := hplan _ (hrig.say .debug (Fault.onLine line command.describe))
  have hexec : (st.plan rig.arm ⟨line, command⟩).exec .obliging rig =
      (st.commandPlan rig.arm line command).exec .obliging
        (rig.say .debug (Fault.onLine line command.describe)) := rfl
  have hstop : ¬ rig.stop = true := hrig.stop ▸ Bool.false_ne_true
  unfold Plan.Leads at hleads
  simp only [Carries, performAll, if_neg hstop, perform, hexec]
  rcases hrun : (st.commandPlan rig.arm line command).exec .obliging
    (rig.say .debug (Fault.onLine line command.describe)) with ⟨outcome, after⟩
  rw [hrun] at hleads
  cases outcome with
  | fault fault => exact hleads
  | broken b => exact hleads
  | value effect =>
    obtain ⟨heffect, hafter⟩ := hleads
    obtain ⟨message, w', happly, hothers⟩ := hrest effect heffect
    simp only [affect, happly]
    cases message with
    | none => exact hothers _ ⟨hafter, rfl⟩
    | some text => exact hothers _ ⟨hafter.say _ _, rfl⟩

/-- A run of statements that are carried out ends at home with a verdict, unless a point is out of
reach or a turn does not fit. -/
theorem run_of_carries {program : Program} {n : Nat} (hpark : R → st.homePose.isOk = true)
    (h : Carries st R F 0 program (fun m t => m = n ∧ F ∧ ∃ arm, t.Stands arm warnings w)
      (s.begin program)) :
    (∃ report fault, (run st .obliging program s).1 = .ok report ∧
      report.error? = some fault ∧ fault.isOfReach = true ∧ ¬ R) ∨
    ((run st .obliging program s).1 = .error .overflow ∧ ¬ F) ∨
    (F ∧ (run st .obliging program s).1 =
      .ok { state := .completed, success? := some w.solved, applied := n, warnings }) := by
  unfold Carries at h
  unfold run
  rcases hall : performAll st .obliging 0 program (s.begin program) with ⟨⟨outcome, m⟩, t⟩
  rw [hall] at h
  cases outcome with
  | broken b =>
    obtain ⟨rfl, hF⟩ := h
    exact .inr (.inl ⟨rfl, hF⟩)
  | fault fault => exact .inl ⟨_, fault, rfl, rfl, h⟩
  | value all =>
    cases all with
    | false => exact h.elim
    | true =>
      obtain ⟨rfl, hF, arm, hrig, hworld⟩ := h
      have hleads := Station.leads_park (F := True) hrig hpark
      unfold Plan.Leads at hleads
      simp only [conclude]
      rcases hexec : st.park.exec .obliging t.rig with ⟨outcome, rig⟩
      rw [hexec] at hleads
      cases outcome with
      | broken b => exact absurd trivial hleads.2
      | fault fault => exact .inl ⟨_, fault, rfl, rfl, hleads⟩
      | value u =>
        refine .inr (.inr ⟨hF, ?_⟩)
        simp only [finish, say, Rig.warnings_say, hleads, hworld, Option.map_some]
        rfl

/-- On a reliable device such a run ends in the same way, if nobody asks for a stop. -/
theorem runSource_of_carries {d : Device σ} {rig : Rig σ} {source : List Char} {program : Program}
    {n : Nat} (hparse : Script.parse source = .ok program) (hne : program ≠ [])
    (hdevice : d.Reliable rig.device) (hpark : R → st.homePose.isOk = true)
    (h : ∀ s : Scene Unit, s.Stands rig.arm [] w →
      Carries st R F 0 program (fun m t => m = n ∧ F ∧ ∃ arm, t.Stands arm warnings w') s)
    {result : Except Breakdown Report} {after : Scene σ}
    (hrun : runSource st d source ⟨rig, some w⟩ = (result, after)) (hstop : after.rig.stop = false) :
    (∃ report fault, result = .ok report ∧ report.error? = some fault ∧
      fault.isOfReach = true ∧ ¬ R) ∨
    (result = .error .overflow ∧ ¬ F) ∨
    (F ∧ result =
      .ok { state := .completed, success? := some w'.solved, applied := n, warnings }) := by
  -- the obliging device answers in the same way
  set s' : Scene Unit := ⟨{ st.rig () with arm := rig.arm }, some w⟩
  have hquiet := stop_runSource st Device.undisturbed_obliging source (s := s') rfl
  obtain ⟨hsame, -⟩ := runSource_alike ⟨rig, some w⟩ s' st d.mimics_obliging hdevice rfl rfl source
    ((congrArg (fun out => out.2.rig.stop) hrun).trans hstop) hquiet
  have hstands : (s'.begin program).Stands rig.arm [] w := by
    obtain ⟨-, hbegun⟩ := s'.begin_rig program
    refine ⟨⟨(begin_agrees program s').rig.stop, hbegun, ?_⟩, rfl⟩
    simp only [begin, say, Rig.warnings_say]
  have hreported : result = (run st .obliging program s').1 := by
    rw [hrun, runSource, hparse] at hsame
    cases program with
    | nil => exact absurd rfl hne
    | cons first rest => exact hsame
  rw [hreported]
  exact run_of_carries hpark (h _ hstands)

end Scene

end BlockArm
