/-
# What diagnostics leave as it was

A diagnostic drives the arm about and sets the wrist to many angles, but it is not meant to change
anything.  In the block world it can at most turn the held block along with the wrist, and that only
if it has succeeded.  A sweep restores the wrist, a tour comes back to its column, and centring moves
nothing but the wrist.

* `Device.HasTurned`: the servo was told an angle last;
* `Station.Spared`: what a diagnostic that succeeds leaves of the belief about the arm;
* `Station.ensures_visit_back`: a tour ends above the last of its columns;
* `Station.ensures_visit_done`: a tour within reach succeeds if its calls do;
* `World.HeldTurned`: all of a world is the same but for the rotation of the held block;
* `Scene.diagnose_spares`: what a diagnostic leaves of a scene.
-/
import BlockArm.Proofs.Run.Applied
import BlockArm.Proofs.Run.FailedHome
import BlockArm.Proofs.Run.ServoTurns
import BlockArm.Proofs.Run.Turning

namespace BlockArm

variable {σ : Type}

/-! ## The arm -/

/-- The last thing that the device has done is to turn the wrist to an angle. -/
def Device.HasTurned (d : Device σ) (angle : Float) (device : σ) : Prop :=
  ∃ before, (d.perform (.setWrist angle) before).1.answer = .done ∧
    (d.perform (.setWrist angle) before).2 = device

/-- The arm is above the centre of the column of its cell. -/
def ArmState.OverCell (w : Workspace) (arm : ArmState) : Prop :=
  arm.pose.spot = w.center arm.cell.x arm.cell.y

/-- A call to turn the wrist ensures that it is the last one, if it is answered. -/
theorem Plan.ensures_setWrist {d : Device σ} {angle : Float} {Q : Unit → σ → ArmState → Prop}
    {E : σ → ArmState → Prop} {device : σ} {arm : ArmState}
    (hQ : ∀ device, d.HasTurned angle device → Q () device arm) (hE : ∀ device, E device arm) :
    (act (.setWrist angle)).Ensures d Q E device arm :=
  ensures_act_of_answer (fun hdone => hQ _ ⟨device, hdone, rfl⟩) fun _ => hE _

namespace Station

/-- What a diagnostic with some arguments leaves of the belief about the arm when it succeeds. -/
def Spared (st : Station) (arguments : List Int32) (arm arm' : ArmState) : Prop :=
  match arguments with
  | [] => arm' = { arm with wrist := st.workspace.wristCenter }
  | mode :: _ => (mode = 0 ∧ arm' = arm) ∨ (mode = 1 ∧ arm'.cell = arm.cell ∧
      arm'.pose = .above (st.workspace.center arm.cell.x arm.cell.y) arm.pose.z)

variable {st : Station} {d : Device σ} {device : σ} {arm : ArmState}

/-- A tour comes back to its cell, at the height that the arm had. -/
theorem Spared.tour {arm' : ArmState} {more : List Int32} (h : st.Spared (1 :: more) arm arm') :
    arm'.cell = arm.cell ∧
      arm'.pose = .above (st.workspace.center arm.cell.x arm.cell.y) arm.pose.z :=
  (h.resolve_left fun hsweep => absurd hsweep.1 (by decide)).2

/-- So it leaves the arm where it was just if that was above its cell. -/
theorem Spared.pose_eq_iff {arm' : ArmState} {more : List Int32}
    (h : st.Spared (1 :: more) arm arm') : arm'.pose = arm.pose ↔ arm.OverCell st.workspace := by
  rw [h.tour.2, ArmState.OverCell]
  constructor
  · intro heq
    rw [← heq, Pose.spot_above]
  · intro hspot
    rw [← hspot, Pose.above_spot]

/-- A leg of a tour leads above the centre of its column and leaves the height. -/
theorem ensures_travel_over (x y : Int32) {believed : ArmState} :
    (st.travel arm x y).Ensures d
      (fun v device arm' => arm' = v.1 ∧ d.HasTurned v.1.wrist device ∧
        v.1.cell = { arm.cell with x, y } ∧
        v.1.pose = .above (st.workspace.center x y) arm.pose.z)
      (fun _ _ => True) device believed := by
  unfold travel
  cases hspot : st.workspace.spotAt x y arm.pose.z with
  | error fault => trivial
  | ok spot =>
    obtain ⟨rfl, -⟩ := spotAt_eq_ok hspot
    simp only [Plan.ofExcept, Plan.bind_eq, Plan.done_bind, Plan.ensures_bind,
      Plan.ensures_assume]
    refine Plan.ensures_act (fun _ => ?_) fun _ => trivial
    exact Plan.ensures_setWrist (fun _ hturned => ⟨rfl, hturned, rfl, rfl⟩) fun _ => trivial

/-- A tour leads above the centre of its last column, whatever lies between. -/
theorem ensures_visit_back (x y : Int32) (columns : List (Int32 × Int32)) :
    ∀ (arm : ArmState) {device : σ} {believed : ArmState} (drift : Int32),
      (st.visit arm drift (columns ++ [(x, y)])).Ensures d
        (fun _ device arm' => d.HasTurned arm'.wrist device ∧
          arm'.cell = { arm.cell with x, y } ∧
          arm'.pose = .above (st.workspace.center x y) arm.pose.z)
        (fun _ _ => True) device believed := by
  induction columns with
  | nil =>
    intro arm device believed drift
    simp only [List.nil_append, visit, Plan.bind_eq, Plan.ensures_bind, Plan.ensures_warnOf]
    refine (ensures_travel_over x y).mono ?_ fun _ _ h => h
    rintro ⟨there, setting⟩ device arm' ⟨rfl, hthere⟩
    exact Plan.ensures_checked (fun _ _ => Plan.ensures_checked (fun _ _ => hthere) trivial) trivial
  | cons column columns ih =>
    intro arm device believed drift
    simp only [List.cons_append, visit, Plan.bind_eq, Plan.ensures_bind, Plan.ensures_warnOf]
    refine (ensures_travel_over column.1 column.2).mono ?_ fun _ _ h => h
    rintro ⟨there, setting⟩ device arm' ⟨-, -, hcell, hpose⟩
    -- the next legs leave the height of the cell and of the arm as this one has left them
    refine Plan.ensures_checked (fun _ _ => ?_) trivial
    refine Plan.ensures_checked (fun _ _ => ?_) trivial
    refine (ih there _).mono ?_ fun _ _ h => h
    rintro _ device arm' ⟨hturned, hcell', hpose'⟩
    exact ⟨hturned, by rw [hcell', hcell], by rw [hpose', hpose]; rfl⟩

/-- A tour within reach succeeds if its calls do: the wrist stays in its range, so that no drift is
large, and the drifts of a tour that is not too long have small sums. -/
theorem ensures_visit_done (hmove : ∀ x y s, (d.perform (.moveXY x y) s).1.answer = .done)
    (hset : ∀ angle s, (d.perform (.setWrist angle) s).1.answer = .done)
    (hrange : st.workspace.wrist.low ≤ st.workspace.wrist.high) (columns : List (Int32 × Int32)) :
    ∀ {arm believed : ArmState} {device : σ} {drift : Int32},
      st.workspace.wrist.covers arm.wrist = true →
      (∀ column ∈ columns,
        (st.workspace.spotAt column.1 column.2 arm.pose.z).isOk = true) →
      drift.toInt.natAbs + 587 * columns.length ≤ 2147483647 →
      (st.visit arm drift columns).Ensures d (fun _ _ _ => True) (fun _ _ => False) device
        believed := by
  induction columns with
  | nil =>
    intro arm believed device drift _ _ _
    trivial
  | cons column columns ih =>
    intro arm believed device drift hwrist hreach hsmall
    obtain ⟨hfirst, hrest⟩ := List.forall_mem_cons.mp hreach
    obtain ⟨spot, hspot⟩ := exists_eq_ok hfirst
    obtain ⟨m, hdrift, hm⟩ := Workspace.exists_drift_of_follow hwrist arm.pose.spot spot
    rw [List.length_cons] at hsmall
    obtain ⟨sum, hsum, htoInt⟩ := exists_int32 (n := drift.toInt + m.toInt) ⟨by omega, by omega⟩
    have hadded : addTurns? drift m = some sum := hsum
    simp only [visit, travel, hspot, Plan.ofExcept, Plan.bind_eq, Plan.done_bind,
      Plan.ensures_bind, Plan.act, Plan.Ensures, hmove, hset, Plan.ensures_assume,
      Plan.ensures_warnOf, Plan.pure_eq, Plan.ensures_done, hdrift, Plan.checked, hadded]
    exact ih (WristRange.covers_settle hrange _ _) hrest (by omega)

/-- So does the tour of a diagnostic. -/
theorem ensures_tour_done (hmove : ∀ x y s, (d.perform (.moveXY x y) s).1.answer = .done)
    (hset : ∀ angle s, (d.perform (.setWrist angle) s).1.answer = .done)
    (hrange : st.workspace.wrist.low ≤ st.workspace.wrist.high)
    (hwrist : st.workspace.wrist.covers arm.wrist = true)
    (hreach : ∀ column ∈ tourColumns ++ [(arm.cell.x, arm.cell.y)],
      (st.workspace.spotAt column.1 column.2 arm.pose.z).isOk = true)
    (line : Nat) (more : List Int32) :
    (st.plan arm ⟨line, .diagnose (1 :: more)⟩).Ensures d (fun effect _ _ => ∃ m, effect = .turn m)
      (fun _ _ => False) device arm := by
  refine (?_ : (st.tour arm).Ensures d _ _ device arm)
  rw [tour, Plan.bind_eq, Plan.ensures_bind]
  refine (ensures_visit_done hmove hset hrange _ hwrist hreach ?_).mono
    (fun drift _ _ _ => ⟨drift, rfl⟩) fun _ _ h => h
  show (0 : Int32).toInt.natAbs + 587 * (tourColumns ++ [_]).length ≤ 2147483647
  rw [List.length_append, List.length_singleton]
  decide

/-- The angles of a sweep are not taken down. -/
theorem ensures_sweepTo_same (high step : Float) (n : Nat) :
    ∀ {device : σ} (angle : Float), (sweepTo high step n angle).Ensures d
      (fun _ _ arm' => arm' = arm) (fun _ _ => True) device arm := by
  induction n with
  | zero =>
    intro device angle
    trivial
  | succ n ih =>
    intro device angle
    unfold sweepTo
    split
    · simp only [Plan.Ensures]
      split
      · exact ih _
      · trivial
      · trivial
    · rfl

/-- A diagnostic that succeeds spares the belief about the arm, sets the wrist last to the angle
that is believed, and has no other effect than a turn. -/
theorem ensures_diagnose_spared (line : Nat) (arguments : List Int32) :
    (st.diagnose arm line arguments).Ensures d
      (fun effect device arm' => (∃ degrees, effect = .turn degrees) ∧
        d.HasTurned arm'.wrist device ∧ st.Spared arguments arm arm')
      (fun _ _ => True) device arm := by
  cases arguments with
  | nil =>
    refine (?_ : (st.centerWrist arm).Ensures d _ _ device arm)
    unfold centerWrist
    simp only [Plan.bind_eq, Plan.ensures_bind, Plan.ensures_assume]
    refine Plan.ensures_setWrist (fun _ hturned => ?_) fun _ => trivial
    exact Plan.ensures_checked (fun m _ => ⟨⟨m, rfl⟩, hturned, rfl⟩) trivial
  | cons mode more =>
    unfold diagnose
    split
    · contradiction
    · next mode' more' heq =>
      obtain ⟨rfl, rfl⟩ := List.cons.inj heq
      split
      · next hmode =>
        unfold sweep
        simp only [Plan.bind_eq, Plan.ensures_bind]
        refine (ensures_sweepTo_same _ _ _ _).mono ?_ fun _ _ h => h
        rintro _ device arm' rfl
        exact Plan.ensures_setWrist
          (fun _ hturned => ⟨⟨0, rfl⟩, hturned, .inl ⟨hmode, rfl⟩⟩) fun _ => trivial
      · split
        · next hmode =>
          unfold tour
          simp only [Plan.bind_eq, Plan.ensures_bind]
          refine (ensures_visit_back _ _ _ arm _).mono ?_ fun _ _ h => h
          rintro drift device arm' ⟨hturned, hcell, hpose⟩
          exact ⟨⟨drift, rfl⟩, hturned, .inr ⟨hmode, hcell, hpose⟩⟩
        · trivial

end Station

/-! ## The scene -/

/-- The held block, if there is one, may have another rotation; all else in a world is the same. -/
def World.HeldTurned (w w' : World) : Prop :=
  ∃ rotation, w' = { w with held := w.held.map fun b => ({ b with rotation } : Block).refresh }

/-- A turn that does anything turns the held block. -/
theorem World.heldTurned_apply_turn (w : World) (degrees : Int32) :
    ((Effect.turn degrees).apply w).2 = w ∨ w.HeldTurned ((Effect.turn degrees).apply w).2 := by
  rw [Effect.apply]
  split
  · rcases w.turnHeld_cases degrees with ⟨fault, heq⟩ | ⟨b, hheld, heq⟩
    · rw [heq]
      exact .inl rfl
    · rw [heq]
      exact .inr ⟨(b.turnBy degrees).rotation, by rw [hheld]; rfl⟩
  · exact .inl rfl

/-- An arm that was driven home with success, if at all, is above its cell. -/
theorem Station.Reached.overCell {workspace : Workspace} {settings : Settings} {st : Station}
    {arm : ArmState} (hbuild : build workspace settings = .ok st)
    (h : st.Reached (fun _ => True) (fun outcome => outcome = .value ()) arm) :
    arm.OverCell st.workspace := by
  rw [ArmState.OverCell, (pose_of_reached hbuild h).1]
  rfl

namespace Scene

variable {st : Station} {d : Device σ} {s t : Scene σ} {line : Nat} {arguments : List Int32}

/-- A diagnostic that succeeds spares the belief about the arm, and its effect is a turn. -/
theorem spared_of_diagnose (h : perform st d ⟨line, .diagnose arguments⟩ s = (.value (), t)) :
    d.HasTurned t.rig.arm.wrist t.rig.device ∧ st.Spared arguments s.rig.arm t.rig.arm ∧
      (t.world = s.world ∨
        ∃ w w', s.world = some w ∧ t.world = some w' ∧ w.HeldTurned w') := by
  obtain ⟨effect, rig, hexec, haffect⟩ := exec_of_perform h
  have hplan : (st.plan s.rig.arm ⟨line, .diagnose arguments⟩).Ensures d _ _ s.rig.device
      s.rig.arm := Station.ensures_diagnose_spared line arguments
  have hmeets := Plan.ensures_exec hplan
  rw [hexec] at hmeets
  obtain ⟨⟨degrees, rfl⟩, hturned, hspared⟩ := hmeets
  obtain ⟨hdevice, harm⟩ := affect_rig (.turn degrees) ⟨rig, s.world⟩
  rw [haffect] at hdevice harm
  rw [hdevice, harm]
  refine ⟨hturned, hspared, ?_⟩
  cases hworld : s.world with
  | none =>
    rw [hworld] at haffect
    obtain rfl := (Prod.mk.inj haffect).2
    exact .inl rfl
  | some w =>
    have hafter : t.world = some ((Effect.turn degrees).apply w).2 := by
      rw [hworld] at haffect
      simp only [affect] at haffect
      rcases happly : (Effect.turn degrees).apply w with ⟨result, w'⟩
      rw [happly] at haffect
      rcases result with fault | _ | text <;> obtain rfl := (Prod.mk.inj haffect).2 <;> rfl
    rw [hafter]
    exact (w.heldTurned_apply_turn degrees).imp (congrArg some) fun h => ⟨w, _, rfl, rfl, h⟩

/-- **What diagnostics spare.**  A diagnostic that does not succeed leaves the blocks, the noted
cells, the goal and the gripper as they were; one that succeeds can turn the held block, and nothing
else.  Then the servo was told last the angle that is believed.  Centring changes only the wrist, to
the middle of its range, and a sweep leaves the belief about the arm as it was.  A tour leaves the cell
and the height, and comes back to the place of its cell, wherever it began: that is the place it began
at just if the arm was above its cell.  That it is wherever runs and drives home have taken it, if all
these drives have succeeded. -/
theorem diagnose_spares (st : Station) (d : Device σ) (line : Nat) (arguments : List Int32)
    (s : Scene σ) :
    let out := perform st d ⟨line, .diagnose arguments⟩ s
    (out.1 ≠ .value () → out.2.world = s.world) ∧
    (out.2.world = s.world ∨
      ∃ w w', s.world = some w ∧ out.2.world = some w' ∧ w.HeldTurned w') ∧
    (out.1 = .value () →
      d.HasTurned out.2.rig.arm.wrist out.2.rig.device ∧
      st.Spared arguments s.rig.arm out.2.rig.arm ∧
      (arguments.head? = some 1 → out.2.rig.arm.cell = s.rig.arm.cell ∧
        out.2.rig.arm.pose.z = s.rig.arm.pose.z ∧
        out.2.rig.arm.pose.spot = (st.workspace.image s.rig.arm.cell).spot ∧
        (out.2.rig.arm.pose = s.rig.arm.pose ↔ s.rig.arm.OverCell st.workspace))) ∧
    (∀ workspace settings, Station.build workspace settings = .ok st →
      st.Reached (fun _ => True) (fun outcome => outcome = .value ()) s.rig.arm →
      s.rig.arm.OverCell st.workspace) := by
  intro out
  have hfailed := world_of_perform st d ⟨line, .diagnose arguments⟩ (s := s)
  refine ⟨hfailed, ?_, fun hvalue => ?_, fun _ _ => Station.Reached.overCell⟩
  · by_cases hvalue : out.1 = .value ()
    · exact (spared_of_diagnose (Prod.ext hvalue rfl)).2.2
    · exact .inl (hfailed hvalue)
  · obtain ⟨hturned, hspared, -⟩ := spared_of_diagnose (Prod.ext hvalue rfl)
    refine ⟨hturned, hspared, fun hone => ?_⟩
    obtain ⟨more, rfl⟩ := List.head?_eq_some_iff.mp hone
    obtain ⟨hcell, hpose⟩ := hspared.tour
    exact ⟨hcell, by rw [hpose, Pose.above], by rw [hpose]; rfl, hspared.pose_eq_iff⟩

/-- A sweep while the board is held. -/
theorem diagnose_spares_boardHeld :
    let out := perform .standard .recorder ⟨1, .diagnose [0]⟩ boardHeld
    out.1 = .value () ∧ out.2.rig.arm = boardHeld.rig.arm ∧
      Station.standard.Reached (fun _ => True) (fun outcome => outcome = .value ())
        boardHeld.rig.arm ∧
      boardHeld.rig.arm.OverCell Station.standard.workspace := by
  intro out
  have hvalue : out.1 = .value () := Outcome.eq_value (by decide +kernel)
  obtain ⟨-, -, hdone, hover⟩ := diagnose_spares .standard .recorder 1 [0] boardHeld
  obtain ⟨-, hspared, -⟩ := hdone hvalue
  refine ⟨hvalue, ?_, .built, hover {} {} Station.build_standard .built⟩
  exact hspared.elim And.right fun hone => absurd hone.1 (by decide)

/-- An arm whose pump does not answer. -/
def stuckPump : Device Pose where
  perform
    | .moveXY x y, p => (⟨.done, false⟩, { p with x, y })
    | .moveZ z, p => (⟨.done, false⟩, { p with z })
    | .setWrist _, p => (⟨.done, false⟩, p)
    | .pump _, p => (⟨.failed "no answer", false⟩, p)
    | .reset, _ => (⟨.done, false⟩, .zero)
  pose p := .ok p

/-- The standard arm on that device, after it was to be driven home. -/
def halfHome : Scene Pose := { rig := (home .standard stuckPump (Station.standard.rig .zero)).2 }

/-- Its drive home fails, and then the arm is believed to be above the home cell, but at the base. -/
theorem home_stuckPump :
    (home .standard stuckPump (Station.standard.rig .zero)).1 = .fault (.device "no answer") ∧
      halfHome.rig.arm = { Station.standard.homeArm with pose := .zero } := ⟨rfl, rfl⟩

/-- From there, a tour succeeds. -/
theorem perform_tour_halfHome : ∃ t,
    perform .standard stuckPump ⟨1, .diagnose [1]⟩ halfHome = (.value (), t) := by
  have hwrist : Station.standard.workspace.wrist.covers Station.standard.homeArm.wrist = true := by
    decide +kernel
  have hreach : ∀ column ∈ Station.tourColumns ++ [(3, 8)],
      (Station.standard.workspace.spotAt column.1 column.2 Pose.zero.z).isOk = true :=
    List.all_eq_true.mp (by decide +kernel)
  obtain ⟨_, after, hexec, drift, rfl⟩ := Plan.exists_value_of_ensures (r := halfHome.rig)
    (Station.standard.ensures_tour_done (d := stuckPump) (fun _ _ _ => rfl) (fun _ _ => rfl)
      (by decide +kernel) (by rw [home_stuckPump.2]; exact hwrist)
      (by rw [home_stuckPump.2]; exact hreach) 1 [])
  exact ⟨⟨after, none⟩, by simp only [perform, hexec]; rfl⟩

/-- After a drive home that failed, the arm is believed to be at the base and above its old cell, and
a tour that succeeds brings it to the cell.  And where the wrist can turn very far, centring it may
neither succeed nor fail, but break down. -/
theorem exists_diagnose_not_spares :
    ((home .standard stuckPump (Station.standard.rig .zero)).1 = .fault (.device "no answer") ∧
      ∃ t, perform .standard stuckPump ⟨1, .diagnose [1]⟩ halfHome = (.value (), t) ∧
        t.rig.arm.pose ≠ halfHome.rig.arm.pose) ∧
    Station.build Station.spacious.workspace Station.spacious.settings = .ok .spacious ∧
    ∃ m t, performAll .spacious .recorder 0 [⟨1, .turn 2147483647⟩, ⟨2, .turn 2147483647⟩]
        { rig := Station.spacious.rig {} } = (⟨.value true, m⟩, t) ∧
      (perform .spacious .recorder ⟨3, .diagnose []⟩ t).1 = .broken .overflow := by
  refine ⟨⟨home_stuckPump.1, ?_⟩, Station.build_eq_ok (by decide +kernel) (by decide +kernel), ?_⟩
  · obtain ⟨t, ht⟩ := perform_tour_halfHome
    obtain ⟨-, hspared, -⟩ := spared_of_diagnose ht
    refine ⟨t, ht, fun heq => ?_⟩
    have hover := hspared.pose_eq_iff.mp heq
    rw [home_stuckPump.2] at hover
    have hx : (0 : Float) = (Station.standard.workspace.center 3 8).x := congrArg Spot.x hover
    exact absurd hx (by decide +kernel)
  · exact ⟨_, _, performAll_eq_of_outcome .spacious .recorder
      [⟨1, .turn 2147483647⟩, ⟨2, .turn 2147483647⟩] { rig := Station.spacious.rig {} }
      (by decide +kernel), Outcome.eq_overflow (by decide +kernel)⟩

end Scene

end BlockArm
