/-
# Which warnings a run reports

A run reports one warning for every wrist setting that was clamped while the arm moved or turned its
wrist, in the order of the settings, and no others.  The settings of a statement that is broken off
count as far as their calls were done.

* `Station.wristSettings`: the wrist settings that a statement takes, as far as it gets;
* `Rig.Took`: a rig has taken settings, sent their angles, and reported those that were clamped;
* `Scene.tells_run`: runs take the settings of their stages, and report them;
* `Scene.warnings_run`: all angles that are sent lie in the range, and the warnings are those of
  the clamped settings.
-/
import BlockArm.Proofs.Run.Belief
import BlockArm.Proofs.Run.Lockstep

namespace BlockArm

variable {σ α β : Type}

/-! ## The settings of a statement -/

namespace Station

/-- The wrist setting of a leg, if it is gone, and the settings after it. -/
def legThen (st : Station) (d : Device σ) (x y : Int32) (r : Rig σ)
    (after : WristSetting Float → Rig σ → List (WristSetting Float)) : List (WristSetting Float) :=
  match (st.travel r.arm x y).exec d r with
  | (.value (_, setting), r) => setting :: after setting r
  | (.fault _, _) | (.broken _, _) => []

/-- The wrist settings on a way along columns, up to the first column that is not got to, or where the
drifts are no longer added up. -/
def legSettings (st : Station) (d : Device σ) (drift : Int32) :
    List (Int32 × Int32) → Rig σ → List (WristSetting Float)
  | [], _ => []
  | (x, y) :: columns, r => st.legThen d x y r fun setting r =>
    match setting.drift?.bind (addTurns? drift) with
    | some drift => st.legSettings d drift columns r
    | none => []

/-- The wrist settings that a statement takes with success while it moves the arm or turns the
wrist: one for a move or a turn, and one for each leg of a tour. -/
def wristSettings (st : Station) (d : Device σ) (statement : Statement) (r : Rig σ) :
    List (WristSetting Float) :=
  match statement.command with
  | .move x y => st.legThen d x y r fun _ _ => []
  | .turn degrees =>
    let setting := st.workspace.turn r.arm.wrist (Number.ofInt32 degrees)
    match (d.perform (.setWrist setting.angle) r.device).1.answer with
    | .done => [setting]
    | .failed _ | .crashed => []
  | .diagnose (mode :: _) =>
    if mode = 1 then st.legSettings d 0 (tourColumns ++ [(r.arm.cell.x, r.arm.cell.y)]) r else []
  | .lift _ | .grip | .release | .diagnose [] => []

/-- Settings depend on the device and on the belief about the arm only. -/
def Local (settings : Rig σ → List (WristSetting Float)) : Prop :=
  ∀ {r r' : Rig σ}, r.device = r'.device → r.arm = r'.arm → settings r = settings r'

/-- The settings from a leg on do so, if those after it do. -/
theorem legThen_congr (st : Station) (d : Device σ) (x y : Int32)
    {after : WristSetting Float → Rig σ → List (WristSetting Float)}
    (hafter : ∀ setting, Local (after setting)) : Local fun r => st.legThen d x y r after := by
  intro r r' hdevice harm
  obtain ⟨hout, hdevice', harm', -⟩ := Plan.exec_congr d (st.travel r'.arm x y) hdevice harm
  simp only [legThen, harm]
  rcases hexec : (st.travel r'.arm x y).exec d r with ⟨outcome, gone⟩
  rcases hexec' : (st.travel r'.arm x y).exec d r' with ⟨outcome', gone'⟩
  rw [hexec, hexec'] at hout hdevice' harm'
  obtain rfl : outcome = outcome' := hout
  cases outcome with
  | value v => exact congrArg _ (hafter v.2 hdevice' harm')
  | fault fault => rfl
  | broken b => rfl

/-- So do the settings on a way. -/
theorem legSettings_congr (st : Station) (d : Device σ) (columns : List (Int32 × Int32)) :
    ∀ drift : Int32, Local (st.legSettings d drift columns) := by
  induction columns with
  | nil => exact fun _ _ _ _ _ => rfl
  | cons column columns ih =>
    intro drift
    refine st.legThen_congr d _ _ fun setting r r' hdevice harm => ?_
    cases setting.drift?.bind (addTurns? drift) with
    | none => rfl
    | some sum => exact ih sum hdevice harm

/-- And so do those of a statement. -/
theorem wristSettings_congr (st : Station) (d : Device σ) (statement : Statement) :
    Local (st.wristSettings d statement) := by
  intro r r' hdevice harm
  have hlegs := fun drift columns => st.legSettings_congr d columns drift hdevice harm
  have hleg := fun x y =>
    @legThen_congr σ st d x y (fun _ _ => []) (fun _ _ _ _ _ => rfl) _ _ hdevice harm
  simp only [wristSettings, hlegs, hleg, hdevice, harm]

/-- A leg that is gone has its setting from the range. -/
theorem ensures_settled_travel (st : Station) (d : Device σ) (arm : ArmState) (x y : Int32)
    (device : σ) : (st.travel arm x y).Ensures d
      (fun v _ _ => ∃ target others, v.2 = st.workspace.wrist.settle target others)
      (fun _ _ => True) device arm := by
  unfold travel
  cases st.workspace.spotAt x y arm.pose.z with
  | error fault => trivial
  | ok spot =>
    simp only [Plan.ofExcept, Plan.bind_eq, Plan.done_bind, Plan.ensures_bind]
    refine Plan.ensures_act (fun _ => ?_) fun _ => trivial
    exact Plan.ensures_act (fun _ => ⟨_, _, rfl⟩) fun _ => trivial

/-- The settings from a leg on come from the range, if those after it do. -/
theorem settled_of_mem_legThen (st : Station) (d : Device σ) {setting : WristSetting Float}
    {x y : Int32} {r : Rig σ} {after : WristSetting Float → Rig σ → List (WristSetting Float)}
    (hafter : ∀ first r, setting ∈ after first r →
      ∃ target others, setting = st.workspace.wrist.settle target others)
    (h : setting ∈ st.legThen d x y r after) :
    ∃ target others, setting = st.workspace.wrist.settle target others := by
  have hmeets := Plan.ensures_exec (st.ensures_settled_travel d r.arm x y r.device)
  rw [legThen] at h
  rcases hexec : (st.travel r.arm x y).exec d r with ⟨outcome, gone⟩
  rw [hexec] at h hmeets
  cases outcome with
  | fault fault => exact absurd h List.not_mem_nil
  | broken b => exact absurd h List.not_mem_nil
  | value v =>
    rcases List.mem_cons.mp h with rfl | h
    · exact hmeets
    · exact hafter v.2 gone h

theorem settled_of_mem_legSettings (st : Station) (d : Device σ) {setting : WristSetting Float}
    (columns : List (Int32 × Int32)) :
    ∀ {drift : Int32} {r : Rig σ}, setting ∈ st.legSettings d drift columns r →
      ∃ target others, setting = st.workspace.wrist.settle target others := by
  induction columns with
  | nil => exact fun h => absurd h List.not_mem_nil
  | cons column columns ih =>
    intro drift r h
    refine st.settled_of_mem_legThen d (fun first gone hmem => ?_) h
    cases hsum : first.drift?.bind (addTurns? drift) with
    | none =>
      rw [hsum] at hmem
      exact absurd hmem List.not_mem_nil
    | some sum =>
      rw [hsum] at hmem
      exact ih hmem

/-- The settings of a statement come from the range. -/
theorem settled_of_mem_wristSettings (st : Station) (d : Device σ) {setting : WristSetting Float}
    {statement : Statement} {r : Rig σ} (h : setting ∈ st.wristSettings d statement r) :
    ∃ target others, setting = st.workspace.wrist.settle target others := by
  unfold wristSettings at h
  split at h
  · exact st.settled_of_mem_legThen d (fun _ _ hmem => absurd hmem List.not_mem_nil) h
  · dsimp only at h
    split at h
    · obtain rfl := List.mem_singleton.mp h
      exact ⟨_, _, rfl⟩
    · exact absurd h List.not_mem_nil
    · exact absurd h List.not_mem_nil
  · split at h
    · exact st.settled_of_mem_legSettings d _ h
    · exact absurd h List.not_mem_nil
  all_goals exact absurd h List.not_mem_nil

end Station

/-! ## Rigs that have taken settings -/

/-- The wrist angles that were set, the earliest first. -/
def Trace.angles (t : Trace) : List Float :=
  t.reverse.filterMap fun
    | (.setWrist angle, .done) => some angle
    | _ => none

/-- Between two states of a rig the settings were taken: their angles were sent in order, perhaps
among others, and those that were clamped were reported. -/
structure Rig.Took (taken : List (WristSetting Float)) (r r' : Rig (Logged σ)) : Prop where
  sent : ∃ later : Trace, r'.device.trace = later ++ r.device.trace ∧
    (taken.map WristSetting.angle).Sublist later.angles
  warned : r'.warnings.toList = r.warnings.toList ++ taken.filterMap WristSetting.warning?

namespace Rig

variable {r r' r'' : Rig (Logged σ)} {taken more : List (WristSetting Float)}

theorem Took.refl (r : Rig (Logged σ)) : Took [] r r :=
  ⟨⟨[], rfl, List.Sublist.refl _⟩, by simp⟩

theorem angles_append (t t' : Trace) : Trace.angles (t ++ t') = t'.angles ++ t.angles := by
  simp only [Trace.angles, List.reverse_append, List.filterMap_append]

theorem Took.trans (h : Took taken r r') (h' : Took more r' r'') : Took (taken ++ more) r r'' := by
  obtain ⟨⟨later, htrace, hsent⟩, hwarned⟩ := h
  obtain ⟨⟨later', htrace', hsent'⟩, hwarned'⟩ := h'
  refine ⟨⟨later' ++ later, ?_, ?_⟩, ?_⟩
  · rw [htrace', htrace, List.append_assoc]
  · rw [angles_append, List.map_append]
    exact hsent.append hsent'
  · rw [hwarned', hwarned, List.filterMap_append, List.append_assoc]

/-- Neither a message nor a new belief counts. -/
theorem Took.of_eq (h : Took taken r r') (hdevice : r''.device = r'.device)
    (hwarnings : r''.warnings = r'.warnings) : Took taken r r'' :=
  ⟨hdevice ▸ h.sent, hwarnings ▸ h.warned⟩

theorem Took.say (h : Took taken r r') (level : Level) (text : String) :
    Took taken r (r'.say level text) :=
  h.of_eq (r'.device_say level text) (r'.warnings_say level text)

end Rig

/-! ## Plans -/

namespace Plan

open Rig

/-- The plan reports no warnings. -/
def Quiet : Plan α → Prop
  | done _ | fail _ | broken _ => True
  | call _ next => (next ()).Quiet
  | locate next => ∀ pose, (next pose).Quiet
  | believe _ next | note _ _ next => next.Quiet
  | warn _ _ => False

theorem Quiet.bind {p : Plan α} {f : α → Plan β} (hp : p.Quiet) (hf : ∀ a, (f a).Quiet) :
    (p.bind f).Quiet := by
  induction p with
  | done a => exact hf a
  | fail fault => trivial
  | broken b => trivial
  | call c next ih => exact ih () hp
  | locate next ih => exact fun pose => ih pose (hp pose)
  | believe arm next ih => exact ih hp
  | note level text next ih => exact ih hp
  | warn warning next ih => exact hp.elim

theorem quiet_ofExcept (e : Except Fault α) : (ofExcept e).Quiet := by
  cases e <;> trivial

theorem quiet_checked (o : Option α) : (checked o).Quiet := by
  cases o <;> trivial

/-- A plan that reports no warnings takes no settings that count. -/
theorem Quiet.took {p : Plan α} (h : p.Quiet) (d : Device σ) (r : Rig (Logged σ)) :
    Took [] r (p.exec d.logged r).2 := by
  induction p generalizing r with
  | done a => exact .refl r
  | fail fault => exact .refl r
  | broken b => exact .refl r
  | call c next ih =>
    have hcall : Took [] r (r.ask d.logged c).2 := by
      refine ⟨⟨[(c, (d.perform c r.device.device).1.answer)], rfl, List.nil_sublist _⟩, ?_⟩
      rw [List.filterMap_nil, List.append_nil]
      rfl
    simp only [exec]
    split
    · exact hcall.trans (ih () h _)
    · exact hcall
    · exact hcall
  | locate next ih =>
    simp only [exec]
    split
    · exact ih _ (h _) r
    · exact .refl r
  | believe arm next ih =>
    have hbelieve : Took [] r { r with arm } := (Took.refl r).of_eq rfl rfl
    exact hbelieve.trans (ih h _)
  | note level text next ih => exact ((Took.refl r).say level text).trans (ih h _)
  | warn warning next ih => exact h.elim

/-- What a plan that reports no warnings adds to another one takes no settings that count. -/
theorem took_then {p : Plan α} {f : α → Plan β} {taken : List (WristSetting Float)}
    {d : Device σ} {r r' : Rig (Logged σ)} (hp : Took taken r (p.exec d.logged r').2)
    (hf : ∀ a, (f a).Quiet) : Took taken r ((p.bind f).exec d.logged r').2 := by
  rw [exec_bind]
  rcases hexec : p.exec d.logged r' with ⟨outcome, after⟩
  rw [hexec] at hp
  cases outcome with
  | fault fault => exact hp
  | broken b => exact hp
  | value a =>
    have hboth := hp.trans ((hf a).took d after)
    rwa [List.append_nil] at hboth

/-- A setting is reported after its angle was sent. -/
theorem exec_warnOf (d : Device σ) (setting : WristSetting Float) (r : Rig σ) : ∃ r',
    (warnOf setting).exec d r = (.value (), r') ∧ r'.device = r.device ∧ r'.arm = r.arm ∧
      r'.warnings.toList = r.warnings.toList ++ setting.warning?.toList := by
  unfold warnOf
  cases setting.warning? with
  | none => exact ⟨r, rfl, rfl, rfl, (List.append_nil _).symm⟩
  | some warning =>
    refine ⟨r.warn warning, rfl, r.device_warn warning, r.arm_warn warning, ?_⟩
    simp only [Rig.warn, warnings_say, Array.toList_push, Option.toList_some]

end Plan

namespace Station

open Plan Rig

variable {st : Station} {d : Device σ} {arm : ArmState} {r r' : Rig (Logged σ)}

theorem quiet_travel (st : Station) (arm : ArmState) (x y : Int32) : (st.travel arm x y).Quiet :=
  (quiet_ofExcept _).bind fun _ => trivial

theorem quiet_sweepTo (high step : Float) (n : Nat) :
    ∀ angle : Float, (sweepTo high step n angle).Quiet := by
  induction n with
  | zero => exact fun _ => trivial
  | succ n ih =>
    intro angle
    unfold sweepTo
    split
    · exact ih (angle + step)
    · trivial

theorem quiet_park (st : Station) : st.park.Quiet := (quiet_ofExcept _).bind fun _ => trivial

theorem quiet_home (st : Station) (arm : ArmState) : (st.home arm).Quiet :=
  fun _ => st.quiet_park

/-- The angle of a setting was sent. -/
def Sent (setting : WristSetting Float) (w w' : Logged σ) : Prop :=
  ∃ later : Trace, w'.trace = later ++ w.trace ∧ [setting.angle].Sublist later.angles

/-- A leg that is gone has sent the angle of its setting. -/
theorem ensures_sent_travel (st : Station) (d : Device σ) (arm : ArmState) (w : Logged σ)
    (x y : Int32) :
    (st.travel arm x y).Ensures d.logged (fun v w' arm' => arm' = v.1 ∧ Sent v.2 w w')
      (fun _ _ => True) w arm := by
  unfold travel
  cases st.workspace.spotAt x y arm.pose.z with
  | error fault => trivial
  | ok spot =>
    simp only [Plan.ofExcept, bind_eq, done_bind, ensures_bind, ensures_assume]
    refine ensures_act_logged (fun _ => ?_) fun _ _ _ => trivial
    refine ensures_act_logged (fun _ => ?_) fun _ _ _ => trivial
    exact ⟨rfl, [(_, .done), (_, .done)], rfl, List.Sublist.refl _⟩

/-- What was sent is reported if it was clamped. -/
theorem took_warnOf {setting : WristSetting Float} (hquiet : Took [] r r')
    (hsent : Sent setting r.device r'.device) :
    Took [setting] r ((warnOf setting).exec d.logged r').2 := by
  obtain ⟨after, hexec, hdevice, -, hwarnings⟩ := exec_warnOf d.logged setting r'
  obtain ⟨later, htrace, hangles⟩ := hsent
  rw [hexec]
  refine ⟨⟨later, by rw [hdevice, htrace], hangles⟩, ?_⟩
  have hbefore := hquiet.warned
  rw [List.filterMap_nil, List.append_nil] at hbefore
  rw [hwarnings, hbefore]
  cases hwarning : setting.warning? <;> simp [hwarning]

/-- A leg takes its setting if it is gone, and what comes after it takes its own. -/
theorem took_leg {x y : Int32}
    {after : WristSetting Float → Rig (Logged σ) → List (WristSetting Float)}
    (hafter : ∀ setting, Local (after setting)) (next : ArmState × WristSetting Float → Plan α)
    (r : Rig (Logged σ)) (hnext : ∀ setting (r : Rig (Logged σ)),
      Took (after setting r) r ((next (r.arm, setting)).exec d.logged r).2) :
    Took (st.legThen d.logged x y r after) r
      (((st.travel r.arm x y).bind fun v => (warnOf v.2).bind fun _ => next v).exec d.logged
        r).2 := by
  have hquiet := (st.quiet_travel r.arm x y).took d r
  have hmeets := ensures_exec (st.ensures_sent_travel d r.arm r.device x y)
  rw [legThen, exec_bind]
  rcases hexec : (st.travel r.arm x y).exec d.logged r with ⟨outcome, gone⟩
  rw [hexec] at hquiet hmeets
  cases outcome with
  | fault fault => exact hquiet
  | broken b => exact hquiet
  | value v =>
    obtain ⟨there, setting⟩ := v
    obtain ⟨harm, hsent⟩ := hmeets
    obtain rfl : gone.arm = there := harm
    -- the warning changes nothing that the other legs depend on
    have hwarn := took_warnOf (d := d) hquiet hsent
    obtain ⟨warned, hexec', hdevice, harm', -⟩ := exec_warnOf d.logged setting gone
    rw [hexec'] at hwarn
    have hrest := hnext setting warned
    rw [hafter setting hdevice harm', harm'] at hrest
    simp only [exec_bind, hexec']
    exact hwarn.trans hrest

/-- A way along columns takes the settings of the legs that are gone. -/
theorem took_visit (columns : List (Int32 × Int32)) :
    ∀ (drift : Int32) (r : Rig (Logged σ)),
      Took (st.legSettings d.logged drift columns r) r
        ((st.visit r.arm drift columns).exec d.logged r).2 := by
  induction columns with
  | nil => exact fun _ r => .refl r
  | cons column columns ih =>
    intro drift r
    refine took_leg (fun setting r r' hdevice harm => ?_) _ r fun setting r' => ?_
    · cases setting.drift?.bind (addTurns? drift) with
      | none => rfl
      | some sum => exact st.legSettings_congr d.logged columns sum hdevice harm
    · -- the way goes on just if the drifts are added up
      cases setting.drift? with
      | none => exact .refl r'
      | some turned =>
        rw [Option.bind_some]
        cases hsum : addTurns? drift turned with
        | none =>
          simp only [Plan.checked, bind_eq, done_bind, hsum]
          exact .refl r'
        | some sum =>
          simp only [Plan.checked, bind_eq, done_bind, hsum]
          exact ih sum r'

/-- A turn takes its setting if the call is done. -/
theorem took_turn (degrees : Int32) (line : Nat) (r : Rig (Logged σ)) :
    Took (st.wristSettings d.logged ⟨line, .turn degrees⟩ r) r
      ((st.turn r.arm degrees).exec d.logged r).2 := by
  set setting := st.workspace.turn r.arm.wrist (Number.ofInt32 degrees) with hsetting
  have hquiet := Quiet.took (p := act (.setWrist setting.angle)) trivial d r
  simp only [act, exec, Rig.ask_fst, Device.answer_logged] at hquiet
  simp only [wristSettings, turn, bind_eq, act, Plan.bind, exec, Rig.ask_fst, Device.answer_logged,
    ← hsetting]
  cases hanswer : (d.perform (.setWrist setting.angle) r.device.device).1.answer with
  | failed message =>
    rw [hanswer] at hquiet
    exact hquiet
  | crashed =>
    rw [hanswer] at hquiet
    exact hquiet
  | done =>
    rw [hanswer] at hquiet
    simp only [Plan.assume, Plan.bind, exec]
    refine took_then (took_warnOf (hquiet.of_eq rfl rfl) ?_)
      fun _ => (quiet_checked _).bind fun _ => trivial
    exact ⟨[(.setWrist setting.angle, .done)], by rw [← hanswer]; rfl, List.Sublist.refl _⟩

theorem quiet_lift (st : Station) (arm : ArmState) (z : Int32) : (st.lift arm z).Quiet :=
  (quiet_ofExcept _).bind fun _ => trivial

theorem quiet_centerWrist (st : Station) (arm : ArmState) : (st.centerWrist arm).Quiet :=
  (quiet_checked _).bind fun _ => trivial

theorem quiet_sweep (st : Station) (arm : ArmState) : (st.sweep arm).Quiet :=
  (quiet_sweepTo _ _ _ _).bind fun _ => trivial

/-- The legs of a tour take their settings. -/
theorem took_diagnose (line : Nat) (arguments : List Int32) (r : Rig (Logged σ)) :
    Took (st.wristSettings d.logged ⟨line, .diagnose arguments⟩ r) r
      ((st.diagnose r.arm line arguments).exec d.logged r).2 := by
  unfold diagnose wristSettings
  cases arguments with
  | nil => exact (quiet_centerWrist st r.arm).took d r
  | cons mode rest =>
    by_cases hsweep : mode = 0
    · subst hsweep
      exact (st.quiet_sweep r.arm).took d r
    · by_cases htour : mode = 1
      · simp only [if_neg hsweep, if_pos htour, tour, bind_eq, pure_eq, exec_bind_done]
        exact took_visit _ 0 r
      · simp only [if_neg hsweep, if_neg htour]
        exact .refl r

/-- A command takes its settings, as far as it gets. -/
theorem took_command (st : Station) (d : Device σ) (statement : Statement) (r : Rig (Logged σ)) :
    Took (st.wristSettings d.logged statement r) r
      ((st.commandPlan r.arm statement.line statement.command).exec d.logged r).2 := by
  obtain ⟨line, command⟩ := statement
  cases command with
  | move x y =>
    refine took_leg (fun _ _ _ _ _ => rfl) _ r fun setting r' => ?_
    exact ((quiet_checked setting.drift?).bind (f := fun m => done (Effect.turn m))
      fun _ => trivial).took d r'
  | lift z => exact (st.quiet_lift r.arm z).took d r
  | grip => exact Quiet.took (p := st.grip r.arm) trivial d r
  | release => exact Quiet.took (p := release r.arm) trivial d r
  | turn degrees => exact took_turn degrees line r
  | diagnose arguments => exact took_diagnose line arguments r

/-- A statement takes the settings of its command. -/
theorem took_plan (st : Station) (d : Device σ) (statement : Statement) (r : Rig (Logged σ)) :
    Took (st.wristSettings d.logged statement r) r
      ((st.plan r.arm statement).exec d.logged r).2 := by
  set text := Fault.onLine statement.line statement.command.describe
  have hsay : Took [] r (r.say .debug text) := (Took.refl r).say .debug text
  have hcommand := st.took_command d statement (r.say .debug text)
  rw [st.wristSettings_congr d.logged statement (r.device_say .debug text) (r.arm_say .debug text),
    r.arm_say .debug text] at hcommand
  exact hsay.trans hcommand

end Station

/-! ## Runs -/

namespace Scene

open Rig

variable {st : Station} {d : Device σ}

theorem took_affect (e : Effect) (s : Scene (Logged σ)) : Took [] s.rig (affect e s).2.rig := by
  obtain ⟨rig, world⟩ := s
  cases world with
  | none => exact .refl rig
  | some w =>
    simp only [affect]
    obtain ⟨result, after⟩ := e.apply w
    cases result with
    | error fault => exact .refl rig
    | ok message =>
      cases message with
      | none => exact .refl rig
      | some text => exact (Took.refl rig).say _ _

/-- A statement takes its settings, whether it succeeds or not. -/
theorem took_perform (st : Station) (d : Device σ) (statement : Statement)
    (s : Scene (Logged σ)) :
    Took (st.wristSettings d.logged statement s.rig) s.rig
      (perform st d.logged statement s).2.rig := by
  obtain ⟨rig, world⟩ := s
  have hplan := st.took_plan d statement rig
  simp only [perform]
  rcases hexec : (st.plan rig.arm statement).exec d.logged rig with ⟨outcome, after⟩
  rw [hexec] at hplan
  cases outcome with
  | fault fault => exact hplan
  | broken b => exact hplan
  | value effect =>
    have haffect := hplan.trans (took_affect effect ⟨after, world⟩)
    rw [List.append_nil] at haffect
    exact haffect

/-- The settings of the stages of a program, in order. -/
def taken (st : Station) (d : Device σ) (program : Program) (s : Scene σ) :
    List (WristSetting Float) :=
  (stages st d program s).flatMap fun x => st.wristSettings d x.statement x.before.rig

theorem took_performAll (st : Station) (d : Device σ) (program : Program) :
    ∀ (n : Nat) (s : Scene (Logged σ)),
      Took (taken st d.logged program s) s.rig (performAll st d.logged n program s).2.rig := by
  induction program with
  | nil => exact fun _ s => .refl s.rig
  | cons statement rest ih =>
    intro n s
    rw [taken, stages, performAll]
    split
    · exact (Took.refl s.rig).say _ _
    · have hfirst := took_perform st d statement s
      rw [List.flatMap_cons]
      rcases happly : perform st d.logged statement s with ⟨outcome, after⟩
      rw [happly] at hfirst
      cases outcome with
      | value u => exact hfirst.trans (ih (n + 1) after)
      | fault fault =>
        rw [List.flatMap_nil, List.append_nil]
        exact hfirst.say .error (Fault.onLine statement.line fault.message)
      | broken b =>
        rw [List.flatMap_nil, List.append_nil]
        exact hfirst

/-- Settings were taken since a rig, and a report that was made tells the warnings. -/
structure Tells (taken : List (WristSetting Float)) (r : Rig (Logged σ))
    (out : Except Breakdown Report × Scene (Logged σ)) : Prop where
  took : Took taken r out.2.rig
  told : ∀ report, out.1 = .ok report → report.warnings = out.2.rig.warnings.toList

theorem tells_finish {taken : List (WristSetting Float)} {r : Rig (Logged σ)}
    {s : Scene (Logged σ)} (h : Took taken r s.rig) (state : RunState) (report : Report) :
    Tells taken r (finish state report s) := by
  refine ⟨h.of_eq rfl rfl, fun report hreport => ?_⟩
  obtain rfl := Except.ok.inj hreport
  rfl

/-- Parking takes no settings that count. -/
theorem tells_conclude {taken : List (WristSetting Float)} {r : Rig (Logged σ)}
    {s : Scene (Logged σ)} (h : Took taken r s.rig) (report : Report) :
    Tells taken r (conclude st d.logged report s) := by
  have hpark := h.trans (st.quiet_park.took d s.rig)
  rw [List.append_nil] at hpark
  unfold conclude
  rcases hexec : st.park.exec d.logged s.rig with ⟨outcome, rig⟩
  rw [hexec] at hpark
  cases outcome with
  | value u => exact tells_finish (hpark.say _ _) _ _
  | fault fault => exact tells_finish (hpark.say .error ("parking failed: " ++ fault.message)) _ _
  | broken b => exact ⟨hpark, fun report hreport => absurd hreport (by simp)⟩

/-- A run takes the settings of its stages, and its report tells the warnings. -/
theorem tells_run (st : Station) (d : Device σ) (program : Program) (s : Scene (Logged σ)) :
    Tells (taken st d.logged program (s.begin program)) (s.begin program).rig
      (run st d.logged program s) := by
  have hall := took_performAll st d program 0 (s.begin program)
  unfold run
  rcases hrun : performAll st d.logged 0 program (s.begin program) with ⟨⟨outcome, n⟩, t⟩
  rw [hrun] at hall
  cases outcome with
  | fault fault => exact tells_finish hall _ _
  | broken b => exact ⟨hall, fun report hreport => absurd hreport (by simp)⟩
  | value all =>
    cases all with
    | false => exact tells_finish hall _ _
    | true => exact tells_conclude hall _

end Scene

/-! ## Angles in the range -/

/-- Settings, sweeps and the middle of the range keep the wrist in its range. -/
theorem Station.upholds_range {st : Station}
    (hcenter : st.workspace.wrist.contains st.workspace.wristCenter = true) :
    st.Upholds st.workspace.wrist.contains
      (fun arm => st.workspace.wrist.contains arm.wrist = true) where
  settled := WristRange.contains_settle (WristRange.low_le_high hcenter)
  swept h := h
  centered := hcenter
  held h := h
  turned _ h := h
  moved h _ := h
  lifted h _ := h
  parked _ := hcenter

/-- Where the bearing is a number, the angle for gripping lies in the range. -/
theorem Station.contains_gripAngle {st : Station} {arm : ArmState}
    (hcenter : st.workspace.wrist.contains st.workspace.wristCenter = true)
    (hbearing : arm.pose.spot.bearing.isFinite = true) :
    st.workspace.wrist.contains (st.workspace.gripAngle arm.pose.spot) = true := by
  have hnumber := (Number.le_iff.mp (WristRange.contains_iff.mp hcenter).1).2.1
  exact WristRange.contains_clamp (WristRange.low_le_high hcenter)
    (Number.isNaN_add hnumber hbearing)

/-- However the arm was used, its wrist is believed to be in the range, if it never gripped where
the bearing is no number. -/
theorem Station.contains_wrist_of_reached {st : Station} {arm : ArmState}
    (hcenter : st.workspace.wrist.contains st.workspace.wristCenter = true)
    (hreached : st.Reached (fun arm => arm.pose.spot.bearing.isFinite = true) (fun _ => True) arm) :
    st.workspace.wrist.contains arm.wrist = true := by
  have hupholds := upholds_range hcenter
  refine hupholds.reached (fun arm => contains_gripAngle hcenter) hcenter ?_ hreached
  intro σ d r hr _
  exact ((keeps_home hupholds fun _ => hr).exec (T := fun _ => True)
    (fun _ _ _ _ => trivial) trivial hr).2

/-- A call that is not bad adds no bad one, however it is answered. -/
theorem Logged.Extends.perform {bad : Call → Bool} {w : Logged σ} (d : Device σ) :
    ∀ c (w' : Logged σ), bad c = false → w.Extends bad w' →
      w.Extends bad (d.logged.perform c w').2 :=
  fun _ _ hc hw => hw.call hc _

/-- More calls were made, none of them with an angle out of the range. -/
theorem Logged.Extends.contains {range : WristRange Float} {w w' : Logged σ}
    (h : w.Extends (Call.turnsAmiss range.contains) w') :
    ∃ later : Trace, w'.trace = later ++ w.trace ∧
      ∀ angle answer, (.setWrist angle, answer) ∈ later → range.contains angle = true := by
  obtain ⟨later, htrace, hgood⟩ := h
  refine ⟨later, htrace, fun angle answer hmem => ?_⟩
  simpa [Call.turnsAmiss] using hgood _ hmem

namespace Scene

variable {st : Station}

/-- A drive home sends angles of the range only, and reports no warning. -/
theorem warnings_home (hcenter : st.workspace.wrist.contains st.workspace.wristCenter = true)
    (d : Device σ) {r : Rig (Logged σ)} (hwrist : st.workspace.wrist.contains r.arm.wrist = true) :
    ∃ later : Trace, (Scene.home st d.logged r).2.device.trace = later ++ r.device.trace ∧
      (∀ angle answer, (.setWrist angle, answer) ∈ later →
        st.workspace.wrist.contains angle = true) ∧
      (Scene.home st d.logged r).2.warnings = r.warnings := by
  have hkeeps := Station.keeps_home (Station.upholds_range hcenter) fun _ => hwrist
  obtain ⟨later, htrace, hgood⟩ := (hkeeps.exec (Logged.Extends.perform d) (.refl _ _)
    hwrist).1.contains
  refine ⟨later, htrace, hgood, ?_⟩
  have hquiet := ((st.quiet_home r.arm).took d r).warned
  rw [List.filterMap_nil, List.append_nil] at hquiet
  exact Array.toList_inj.mp hquiet

/-- **Wrist angles and warnings.**  If the middle of the servo range lies in it, and the arm has
never gripped where its bearing is no number, then every wrist angle that a run or a drive home
sends lies in the range.  The warnings of a run are those of the settings that were clamped while
the arm moved or turned its wrist, one for each, in order; the angle applied is the one that was
sent, and the angle requested lies outside the range.  A drive home reports none.  (An arc tangent
is finite unless it is no number.) -/
theorem warnings_run (hcenter : st.workspace.wrist.contains st.workspace.wristCenter = true)
    (d : Device σ) {s : Scene (Logged σ)}
    (hreached : st.Reached (fun arm => arm.pose.spot.bearing.isFinite = true) (fun _ => True)
      s.rig.arm) (program : Program)
    (hgrips : ∀ x ∈ stages st d.logged program (s.begin program), x.statement.command = .grip →
      x.before.rig.arm.pose.spot.bearing.isFinite = true) :
    (∃ later : Trace,
      (run st d.logged program s).2.rig.device.trace = later ++ s.rig.device.trace ∧
      (∀ angle answer, (.setWrist angle, answer) ∈ later →
        st.workspace.wrist.contains angle = true) ∧
      ((taken st d.logged program (s.begin program)).map WristSetting.angle).Sublist
        later.angles) ∧
    (∀ report, (run st d.logged program s).1 = .ok report →
      report.warnings =
        (taken st d.logged program (s.begin program)).filterMap WristSetting.warning?) ∧
    (∀ requested applied,
      .clamped requested applied ∈ taken st d.logged program (s.begin program) →
      st.workspace.wrist.contains requested = false ∧
        st.workspace.wrist.contains applied = true) ∧
    ∃ later : Trace,
      (Scene.home st d.logged s.rig).2.device.trace = later ++ s.rig.device.trace ∧
      (∀ angle answer, (.setWrist angle, answer) ∈ later →
        st.workspace.wrist.contains angle = true) ∧
      (Scene.home st d.logged s.rig).2.warnings = s.rig.warnings := by
  have hupholds := Station.upholds_range hcenter
  have hwrist := Station.contains_wrist_of_reached hcenter hreached
  obtain ⟨⟨⟨later, htrace, hsent⟩, hwarned⟩, htold⟩ := tells_run st d program s
  obtain ⟨hdevice, -⟩ := s.begin_rig program
  refine ⟨?_, fun report hreport => ?_, fun requested applied hmem => ?_,
    warnings_home hcenter d hwrist⟩
  · obtain ⟨later', htrace', hgood⟩ := (hupholds.run (Logged.Extends.perform d)
      (fun x hx hgrip => Station.contains_gripAngle hcenter (hgrips x hx hgrip)) (.refl _ _)
      hwrist).1.contains
    rw [hdevice] at htrace
    obtain rfl := List.append_cancel_right (htrace'.symm.trans htrace)
    exact ⟨later', htrace', hgood, hsent⟩
  · have hfresh : (s.begin program).rig.warnings = #[] := by
      rw [begin, say, Rig.warnings_say]
    rw [htold report hreport, hwarned, hfresh]
    rfl
  · obtain ⟨x, -, hx⟩ := List.mem_flatMap.mp hmem
    obtain ⟨target, others, hsettle⟩ := st.settled_of_mem_wristSettings d.logged hx
    have hrange := WristRange.contains_settle (WristRange.low_le_high hcenter) target others
    rw [← hsettle] at hrange
    exact ⟨WristRange.not_contains_of_settle hsettle.symm, hrange⟩

/-- A turn beyond the range, and a sweep. -/
def turnThenSweep : Program := [⟨1, .turn 100⟩, ⟨2, .diagnose [0]⟩]

/-- A scene at home, before any calls. -/
def fresh : Scene (Logged Recorder) := { rig := Station.standard.rig { device := {} } }

/-- The turn is clamped and reported, and the sweep is not. -/
theorem warnings_run_turnThenSweep : ∃ report warning,
    (run .standard (.logged .recorder) turnThenSweep fresh).1 = .ok report ∧
    report.warnings = [warning] ∧
    Station.standard.workspace.wrist.contains warning.requested = false ∧
    Station.standard.workspace.wrist.contains warning.applied = true := by
  have hlength : (run .standard (.logged .recorder) turnThenSweep fresh).1.toOption.map
      (fun report => report.warnings.length) = some 1 := by
    decide +kernel
  have hgrips : ∀ x ∈ stages .standard (.logged .recorder) turnThenSweep
      (fresh.begin turnThenSweep), x.statement.command = .grip →
      x.before.rig.arm.pose.spot.bearing.isFinite = true := by
    intro x hx hgrip
    have hmem := statement_mem_of_mem_stages x hx
    simp only [turnThenSweep, List.mem_cons, List.not_mem_nil, or_false] at hmem
    rcases hmem with hmem | hmem <;> simp [hmem] at hgrip
  have hcenter : Station.standard.workspace.wrist.contains
      Station.standard.workspace.wristCenter = true := by
    decide +kernel
  obtain ⟨-, hwarnings, hclamped, -⟩ := warnings_run hcenter .recorder (s := fresh) .built
    turnThenSweep hgrips
  rcases hreport : (run .standard (.logged .recorder) turnThenSweep fresh).1 with b | report
  · rw [hreport] at hlength
    exact absurd hlength (by simp [Except.toOption])
  · rw [hreport] at hlength
    obtain ⟨warning, hone⟩ := List.length_eq_one_iff.mp (Option.some.inj hlength)
    refine ⟨report, warning, rfl, hone, ?_⟩
    have hmem : warning ∈ report.warnings := by simp [hone]
    rw [hwarnings report hreport] at hmem
    obtain ⟨setting, htaken, hsome⟩ := List.mem_filterMap.mp hmem
    cases setting with
    | exact angle => exact absurd hsome (by simp [WristSetting.warning?])
    | clamped requested applied =>
      obtain rfl := Option.some.inj hsome
      exact hclamped requested applied htaken

end Scene

end BlockArm
