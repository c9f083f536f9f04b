/-
# A block brought to another cell

An errand moves an arm from home above a block, grips it, carries it to another column at some
height, and puts it down there.  Every statement of it is carried out unless a point is out of reach,
and the blocks lie in the end as the goal asks, if the wrist has not turned the block on the way.

* `errand`: the statements that bring a block to another cell;
* `Scene.carries_errand`: how the blocks lie after them;
* `Scene.errand_cases`: a run of them is completed, unless a point is out of reach;
* `Scene.runSource_errand`: when it solves the challenge.
-/
import BlockArm.Proofs.Run.Reach
import BlockArm.Proofs.Run.Turning
import BlockArm.Proofs.Script.Writing
import BlockArm.Proofs.World.Delivery

namespace BlockArm

variable {σ : Type}

/-! ## Errands -/

/-- Brings the block of a column at a level to another column, by way of another height. -/
def errand (x y x' y' level travel : Int32) : Program :=
  [.move x y, .lift level, .grip, .lift travel, .move x' y', .lift level, .release].map
    (Statement.mk 1)

/-- An errand is read from what is written of it. -/
theorem Script.parse_errand {x y x' y' level travel : Int32}
    (hlevel : 0 ≤ level.toInt ∧ level.toInt ≤ 3) (htravel : 0 ≤ travel.toInt ∧ travel.toInt ≤ 3) :
    parse (write (errand x y x' y' level travel)) = .ok (errand x y x' y' level travel) := by
  refine parse_write ⟨?_, ?_, ?_⟩
  · simp [errand]
  · simp [errand]
  · intro statement hmem
    simp only [errand, List.map_cons, List.map_nil, List.mem_cons, List.not_mem_nil,
      or_false] at hmem
    refine ⟨fun z hz => ?_, fun ns hns => ?_⟩
    · rcases hmem with rfl | rfl | rfl | rfl | rfl | rfl | rfl <;> cases hz <;> assumption
    · rcases hmem with rfl | rfl | rfl | rfl | rfl | rfl | rfl <;> cases hns

/-- The statements stand on one line. -/
example : String.ofList (Script.write (errand 3 4 5 12 1 2)) =
    "position(3,4);hoehe(1);pumpe_an();hoehe(2);position(5,12);hoehe(1);pumpe_aus()" := by rfl

namespace Station

/-- Every point of an errand from home, and home, is within reach. -/
structure Spans (st : Station) (x y x' y' level travel : Int32) : Prop where
  start : (st.workspace.spotAt x y st.homeArm.pose.z).isOk = true
  grip : (st.workspace.heightAt level (st.workspace.center x y)).isOk = true
  rise : (st.workspace.heightAt travel (st.workspace.center x y)).isOk = true
  cross : (st.workspace.spotAt x' y' (st.workspace.height travel)).isOk = true
  release : (st.workspace.heightAt level (st.workspace.center x' y')).isOk = true
  park : st.homePose.isOk = true

/-- The wrist setting with which a block is carried from one column to another. -/
def carry (st : Station) (x y x' y' : Int32) : WristSetting Float :=
  st.workspace.follow (st.workspace.gripAngle (st.workspace.center x y)) (st.workspace.center x y)
    (st.workspace.center x' y')

end Station

/-- Without a warning, a move does not turn a held block. -/
theorem WristSetting.drift?_of_warning?_eq_none {setting : WristSetting Float}
    (h : setting.warning? = none) : setting.drift? = some 0 := by
  cases setting with
  | exact angle => rfl
  | clamped requested applied => exact absurd h (by simp [warning?])

namespace Station

variable {st : Station} {workspace : Workspace} {settings : Settings}

/-- With the angle that leaves the most room a block is carried without turning too far for 32 bits. -/
theorem exists_drift_carry (h : Station.build workspace settings = .ok st) (x y x' y' : Int32) :
    ∃ drift, (st.carry x y x' y').drift? = some drift := by
  have hle := Workspace.low_le_high_of_check (Station.check_of_build h)
  obtain ⟨drift, hdrift, -⟩ := Workspace.exists_drift_of_follow
    (Workspace.covers_gripAngle hle (st.workspace.center x y)) (st.workspace.center x y)
    (st.workspace.center x' y')
  exact ⟨drift, hdrift⟩

/-- On the way from home to a block the arm may turn too far: where the middle of the servo range, as
it is computed, lies outside of that range. -/
theorem drift?_settingTo_eq_none_iff (h : Station.build workspace settings = .ok st)
    (x y : Int32) : (st.settingTo st.homeArm x y).drift? = none ↔
      st.workspace.wrist.covers st.workspace.wristCenter = false ∧
        (bearingChange st.homeArm.pose.spot.bearing (st.workspace.center x y).bearing).isNaN =
          false := by
  obtain ⟨-, -, -, -, hrange⟩ := Workspace.check_eq_ok_iff.mp (Station.check_of_build h)
  exact Workspace.drift?_follow_center_eq_none_iff hrange _ _

/-- A workspace whose servo range has its middle, as it is computed, above both of its ends. -/
def lofty : Station := { workspace := { wrist := ⟨1e308, 1.2e308⟩ }, settings := {} }

end Station

namespace Scene

variable {st : Station} {c : Challenge} {w : World} {i : Nat} {p : Placement} {b : Block}
  {x y x' y' drift : Int32}

/-- The statements of an errand bring the block to the other cell. -/
theorem carries_errand (h : World.ofChallenge c = .ok w) (hb : c.Starts i p b)
    (hposition : p.position = ⟨x, y, c.floorLevel⟩)
    (hdrift : (st.carry x y x' y').drift? = some drift)
    (hclears : c.Clears i (b.delivered drift ⟨x', y', c.floorLevel⟩).cells)
    (travel : Int32) {s : Scene Unit} (hs : s.Stands st.homeArm [] w) :
    Carries st (st.Spans x y x' y' c.floorLevel travel)
      ((st.settingTo st.homeArm x y).drift? ≠ none) 0 (errand x y x' y' c.floorLevel travel)
      (fun m t => m = 7 ∧ (st.settingTo st.homeArm x y).drift? ≠ none ∧ ∃ arm,
        t.Stands arm ((st.settingTo st.homeArm x y).warning?.toList ++
          (st.carry x y x' y').warning?.toList)
          (w.delivered b drift ⟨x', y', c.floorLevel⟩)) s := by
  have hheld := World.held_ofChallenge h
  have hgrip : (Effect.grip ⟨x, y, c.floorLevel⟩).apply w =
      (.ok (some ("picked up block " ++ Text.natText b.id)), w.carrying b 0) := by
    rw [Effect.apply, ← hposition, World.grip_start h hb]
  have hturn : (Effect.turn drift).apply (w.carrying b 0) = (.ok none, w.carrying b drift) := by
    rw [World.apply_turn_held rfl (b.shaped_turnBy 0), World.carrying, World.carrying,
      hb.shaped.turnBy_zero]
  have hrelease : (Effect.release ⟨x', y', c.floorLevel⟩).apply (w.carrying b drift) =
        (.ok (some ("released block " ++ Text.natText b.id)),
          w.delivered b drift ⟨x', y', c.floorLevel⟩) := by
    rw [Effect.apply, World.release_start h hb rfl hclears]
  -- above the block, down to it and the grip
  refine carries_cons hs (fun r hr => Station.leads_move hr x y Station.Spans.start id) ?_
  rintro _ ⟨m, hm, rfl⟩
  refine ⟨_, _, World.apply_turn_empty hheld m, fun s hs => ?_⟩
  refine carries_cons hs (fun r hr => Station.leads_lift hr c.floorLevel Station.Spans.grip) ?_
  rintro _ rfl
  refine ⟨_, _, World.apply_turn_zero w, fun s hs => ?_⟩
  refine carries_cons hs (fun r hr => Station.leads_grip hr) ?_
  rintro _ rfl
  refine ⟨_, _, hgrip, fun s hs => ?_⟩
  -- up, across, down again and the release
  refine carries_cons hs (fun r hr => Station.leads_lift hr travel Station.Spans.rise) ?_
  rintro _ rfl
  refine ⟨_, _, World.apply_turn_zero _, fun s hs => ?_⟩
  refine carries_cons hs (fun r hr => Station.leads_move hr x' y' Station.Spans.cross
    fun _ hnone => absurd (hdrift.symm.trans hnone) (Option.some_ne_none drift)) ?_
  rintro _ ⟨m', hm', rfl⟩
  obtain rfl : drift = m' := Option.some.inj (hdrift.symm.trans hm')
  refine ⟨_, _, hturn, fun s hs => ?_⟩
  refine carries_cons hs (fun r hr => Station.leads_lift hr c.floorLevel Station.Spans.release) ?_
  rintro _ rfl
  refine ⟨_, _, World.apply_turn_zero _, fun s hs => ?_⟩
  refine carries_cons hs (fun r hr => Station.leads_release hr) ?_
  rintro _ rfl
  refine ⟨_, _, hrelease, fun s hs => ?_⟩
  exact ⟨rfl, fun hnone => absurd (hm.symm.trans hnone) (Option.some_ne_none m), _, hs⟩

/-- An errand on a reliable device is completed if nobody asks for a stop, unless a point is out of
reach or the way to the block turns the wrist too far for 32 bits. -/
theorem errand_cases {d : Device σ} {rig : Rig σ} {travel : Int32} (h : World.ofChallenge c = .ok w)
    (hb : c.Starts i p b) (hlevel : 0 ≤ c.floorLevel.toInt ∧ c.floorLevel.toInt ≤ 3)
    (hposition : p.position = ⟨x, y, c.floorLevel⟩)
    (hdrift : (st.carry x y x' y').drift? = some drift)
    (hclears : c.Clears i (b.delivered drift ⟨x', y', c.floorLevel⟩).cells)
    (htravel : 0 ≤ travel.toInt ∧ travel.toInt ≤ 3) (hdevice : d.Reliable rig.device)
    (harm : rig.arm = st.homeArm) {result : Except Breakdown Report} {after : Scene σ}
    (hrun : runSource st d (Script.write (errand x y x' y' c.floorLevel travel)) ⟨rig, some w⟩ =
      (result, after))
    (hstop : after.rig.stop = false) :
    (∃ report fault, result = .ok report ∧ report.error? = some fault ∧
      fault.isOfReach = true ∧ ¬ st.Spans x y x' y' c.floorLevel travel) ∨
    (result = .error .overflow ∧ ¬ (st.settingTo st.homeArm x y).drift? ≠ none) ∨
    ((st.settingTo st.homeArm x y).drift? ≠ none ∧ result = .ok
      { state := .completed
        success? := some (w.delivered b drift ⟨x', y', c.floorLevel⟩).solved
        applied := 7
        warnings := (st.settingTo st.homeArm x y).warning?.toList ++
          (st.carry x y x' y').warning?.toList }) := by
  refine runSource_of_carries (Script.parse_errand hlevel htravel) (List.cons_ne_nil _ _) hdevice
    Station.Spans.park (fun s hs => ?_) hrun hstop
  rw [harm] at hs
  exact carries_errand h hb hposition hdrift hclears travel hs

/-- **One block to another cell.**  A challenge that was checked has its floor at a height that a
script can name, and a block of the start layout lies on the floor.  A script brings it to another
cell of the floor, with an arm that begins at home.  The block meets no other one of the start layout
where it arrives; it arrives as the wrist has turned it on the way, which without a warning is not at
all.  The device does every call and nobody asks for a stop.  Then the run is completed with all seven
statements, unless a point was out of reach, or the move to the block turned the wrist too far for 32
bits, which breaks the run down.  It does so where the middle of the servo range, as it is computed,
lies outside of that range, and only there.  If the goal asks for the block at that cell, with its
rotation, and for any of the others where they are, then a completed run has solved the challenge,
provided that the block is square or no warning was reported. -/
theorem runSource_errand {workspace : Workspace} {settings : Settings}
    (hbuild : Station.build workspace settings = .ok st) {d : Device σ} {rig : Rig σ}
    {travel : Int32} (hcheck : c.check = .ok ())
    (hlevel : 0 ≤ c.floorLevel.toInt ∧ c.floorLevel.toInt ≤ 3) (hb : c.Starts i p b)
    (hposition : p.position = ⟨x, y, c.floorLevel⟩)
    (hclears : ∀ drift, (st.carry x y x' y').drift? = some drift →
      c.Clears i (b.delivered drift ⟨x', y', c.floorLevel⟩).cells)
    (hgoal : c.AsksFor i p ⟨x', y', c.floorLevel⟩)
    (htravel : 0 ≤ travel.toInt ∧ travel.toInt ≤ 3) (hdevice : d.Reliable rig.device)
    (harm : rig.arm = st.homeArm) :
    ((st.settingTo st.homeArm x y).drift? = none ↔
      st.workspace.wrist.covers st.workspace.wristCenter = false ∧
        (bearingChange st.homeArm.pose.spot.bearing (st.workspace.center x y).bearing).isNaN =
          false) ∧
    ∃ w, World.ofChallenge c = .ok w ∧ ∀ result after,
      runSource st d (Script.write (errand x y x' y' c.floorLevel travel)) ⟨rig, some w⟩ =
        (result, after) →
      after.rig.stop = false →
      (∀ report fault, result = .ok report → report.error? = some fault →
        fault.isOfReach = false) →
      ((st.settingTo st.homeArm x y).drift? = none → result = .error .overflow) ∧
      ((st.settingTo st.homeArm x y).drift? ≠ none →
        ∃ report solved, result = .ok report ∧ report.state = .completed ∧
          report.success? = some solved ∧ report.applied = 7 ∧
          (b.blockType.width = b.blockType.depth ∨ report.warnings = [] → solved = true)) := by
  obtain ⟨w, hw⟩ := World.ofChallenge_of_check hcheck
  obtain ⟨drift, hdrift⟩ := Station.exists_drift_carry hbuild x y x' y'
  have hfree := hclears drift hdrift
  refine ⟨Station.drift?_settingTo_eq_none_iff hbuild x y, w, hw,
    fun result after hrun hstop hreach => ?_⟩
  rcases errand_cases hw hb hlevel hposition hdrift hfree htravel hdevice harm hrun hstop with
    ⟨report, fault, hreport, herror, hfault, -⟩ | ⟨hover, hnone⟩ | ⟨hfits, hreport⟩
  · rw [hreach report fault hreport herror] at hfault
    exact absurd hfault Bool.false_ne_true
  · exact ⟨fun _ => hover, fun hfits => absurd hfits hnone⟩
  · refine ⟨fun hnone => absurd hnone hfits, fun _ => ⟨_, _, hreport, rfl, rfl, rfl, fun hkept => ?_⟩⟩
    have hsame : b.turnBy drift = b := by
      rcases hkept with hsquare | hquiet
      · exact hb.shaped.turnBy_of_square hsquare _
      · have hexact : (st.carry x y x' y').warning? = none := by
          simpa using (List.append_eq_nil_iff.mp hquiet).2
        obtain rfl : drift = 0 := Option.some.inj
          (hdrift.symm.trans (WristSetting.drift?_of_warning?_eq_none hexact))
        exact hb.shaped.turnBy_zero
    exact World.solved_delivered hw hb hfree (congrArg Block.rotation hsame) hgoal

/-- A cube that is to be brought past a board. -/
def cubeAndBoard : Challenge where
  name := "delivery"
  blockTypes := ((∅ : SidesByName).insert "cube" ⟨1, 1⟩).insert "board" ⟨2, 1⟩
  start := [⟨⟨5, 8, 1⟩, 90, "board"⟩, ⟨⟨3, 4, 1⟩, 0, "cube"⟩]
  goal := [⟨⟨5, 8, 1⟩, 90, "board"⟩, ⟨⟨5, 12, 1⟩, 0, "cube"⟩]

/-- Boards and cubes become blocks wherever they are placed. -/
theorem block_cubeAndBoard (id : Nat) (hid : id < maxBlocks) (center : Cell) (degrees : Int32) :
    cubeAndBoard.block id ⟨center, degrees, "board"⟩ =
        .ok (.place id ⟨"board", 2, 1⟩ center degrees) ∧
      cubeAndBoard.block id ⟨center, degrees, "cube"⟩ =
        .ok (.place id ⟨"cube", 1, 1⟩ center degrees) := by
  have hboard : cubeAndBoard.blockTypes["board"]? = some ⟨2, 1⟩ := by decide +kernel
  have hcube : cubeAndBoard.blockTypes["cube"]? = some ⟨1, 1⟩ := by decide +kernel
  exact ⟨World.block_of_sides (s := ⟨2, 1⟩) hboard (by decide) hid,
    World.block_of_sides (s := ⟨1, 1⟩) hcube (by decide) hid⟩

theorem check_cubeAndBoard : cubeAndBoard.check = .ok () := by
  have hboard := fun id hid center degrees => (block_cubeAndBoard id hid center degrees).1
  have hcube := fun id hid center degrees => (block_cubeAndBoard id hid center degrees).2
  have hapart : ∀ cell ∈ (Block.place 1 ⟨"cube", 1, 1⟩ ⟨3, 4, 1⟩ 0).cells,
      cell ∉ (Block.place 0 ⟨"board", 2, 1⟩ ⟨5, 8, 1⟩ 90).cells := by
    decide +kernel
  have hworld : ∃ w, World.ofChallenge cubeAndBoard = .ok w := by
    have hstart : cubeAndBoard.start = [⟨⟨5, 8, 1⟩, 90, "board"⟩, ⟨⟨3, 4, 1⟩, 0, "cube"⟩] := rfl
    have hgoal : cubeAndBoard.goal = [⟨⟨5, 8, 1⟩, 90, "board"⟩, ⟨⟨5, 12, 1⟩, 0, "cube"⟩] := rfl
    rw [World.ofChallenge, hstart,
      World.layFrom_cons (hboard 0 (by decide) _ _) fun cell _ => by simp [World.empty],
      World.layFrom_cons (hcube (0 + 1) (by decide) _ _) fun cell hcell => by
        rw [World.occupied_laid, if_neg (hapart cell hcell)]
        simp [World.empty]]
    simp only [World.layFrom, hgoal, Challenge.blocksFrom, hboard 0 (by decide),
      hcube (0 + 1) (by decide)]
    exact ⟨_, rfl⟩
  obtain ⟨w, hw⟩ := hworld
  obtain ⟨u, htypes⟩ := exists_eq_ok (e := cubeAndBoard.checkTypes cubeAndBoard.blockTypes.keys)
    (by decide +kernel)
  obtain ⟨u', hgoal⟩ := exists_eq_ok
    (e := cubeAndBoard.checkTypes (cubeAndBoard.goal.map Placement.blockType)) (by decide +kernel)
  simp only [Challenge.check, htypes, hgoal, hw]

/-- The cube is one of the start layout. -/
theorem starts_cubeAndBoard : cubeAndBoard.Starts 1 ⟨⟨3, 4, 1⟩, 0, "cube"⟩
    (.place 1 ⟨"cube", 1, 1⟩ ⟨3, 4, 1⟩ 0) := ⟨rfl, (block_cubeAndBoard 1 (by decide) _ _).2⟩

/-- However it is turned, it does not meet the board where it arrives. -/
theorem clears_cubeAndBoard (drift : Int32) : cubeAndBoard.Clears 1
    ((Block.place 1 ⟨"cube", 1, 1⟩ ⟨3, 4, 1⟩ 0).delivered drift
      ⟨5, 12, cubeAndBoard.floorLevel⟩).cells := by
  rw [Block.delivered, starts_cubeAndBoard.shaped.turnBy_of_square rfl]
  have hapart : ∀ cell ∈ (Block.place 0 ⟨"board", 2, 1⟩ ⟨5, 8, 1⟩ 90).cells,
      cell ∉ ((Block.place 1 ⟨"cube", 1, 1⟩ ⟨3, 4, 1⟩ 0).moveTo ⟨5, 12, 1⟩).cells := by
    decide +kernel
  rintro (_ | _ | j) q b' hj ⟨hq, hblock⟩
  · obtain rfl := Option.some.inj hq
    rw [(block_cubeAndBoard 0 (by decide) _ _).1] at hblock
    obtain rfl := Except.ok.inj hblock
    exact fun cell h h' => hapart cell h h'
  · exact absurd rfl hj
  · exact absurd hq (by simp [cubeAndBoard])

/-- The goal asks for it there, and for the board where it is. -/
theorem asksFor_cubeAndBoard :
    cubeAndBoard.AsksFor 1 ⟨⟨3, 4, 1⟩, 0, "cube"⟩ ⟨5, 12, cubeAndBoard.floorLevel⟩ :=
  ⟨[⟨⟨5, 8, 1⟩, 90, "board"⟩], .refl _, .swap _ _ _⟩

/-- The end of the run that is to bring the cube past the board. -/
def deliveryAt (st : Station) (w : World) : Except Breakdown Report × Scene Recorder :=
  runSource st .recorder (Script.write (errand 3 4 5 12 1 2)) ⟨st.rig {}, some w⟩

theorem stop_deliveryAt (st : Station) (w : World) : (deliveryAt st w).2.rig.stop = false :=
  stop_runSource st Device.undisturbed_recorder _ rfl

/-- The cube is brought past the board, and the challenge is solved. -/
theorem runSource_errand_cubeAndBoard : ∃ w report, World.ofChallenge cubeAndBoard = .ok w ∧
    (deliveryAt .standard w).1 = .ok report ∧ report.state = .completed ∧
    report.success? = some true ∧ report.applied = 7 := by
  have hspans : Station.standard.Spans 3 4 5 12 cubeAndBoard.floorLevel 2 := by
    constructor <;> decide +kernel
  have hdevice : Device.recorder.Reliable (Station.standard.rig ({} : Recorder)).device :=
    Device.reliable_recorder rfl
  have htravel : 0 ≤ (2 : Int32).toInt ∧ (2 : Int32).toInt ≤ 3 := by decide
  obtain ⟨hcenter, w, hw, hrun⟩ := runSource_errand Station.build_standard check_cubeAndBoard
    (by decide) starts_cubeAndBoard rfl (fun drift _ => clears_cubeAndBoard drift)
    asksFor_cubeAndBoard htravel hdevice rfl
  have hfits : (Station.standard.settingTo Station.standard.homeArm 3 4).drift? ≠ none :=
    fun hnone => absurd (hcenter.mp hnone).1 (by decide +kernel)
  obtain ⟨drift, hdrift⟩ := Station.exists_drift_carry Station.build_standard 3 4 5 12
  have hstop := stop_deliveryAt .standard w
  rcases hout : deliveryAt .standard w with ⟨result, after⟩
  rw [hout] at hstop
  have hreach : ∀ report fault, result = .ok report → report.error? = some fault →
      fault.isOfReach = false := by
    rintro report fault rfl herror
    rcases errand_cases hw starts_cubeAndBoard (by decide) rfl hdrift (clears_cubeAndBoard drift)
      (by decide) hdevice rfl hout hstop with ⟨-, -, -, -, -, hfar⟩ | ⟨-, hover⟩ | ⟨-, hok⟩
    · exact absurd hspans hfar
    · exact absurd hfits hover
    · obtain rfl := Except.ok.inj hok
      exact absurd herror (by simp)
  obtain ⟨report, solved, hreport, hstate, hsuccess, happlied, hsolved⟩ :=
    (hrun result after hout hstop hreach).2 hfits
  obtain rfl := hsolved (.inl rfl)
  exact ⟨w, report, hw, (congrArg Prod.fst hout).trans hreport, hstate, hsuccess, happlied⟩

/-- The servo is limited to angles of which the sum overflows, so that the arm begins with an infinite
angle.  If the bearings of home and of the block differ by some number, then the turn that is to be
rounded is infinite, too, and the run breaks down. -/
theorem exists_errand_overflow :
    Station.build Station.lofty.workspace Station.lofty.settings = .ok .lofty ∧
    cubeAndBoard.check = .ok () ∧
    Station.lofty.Spans 3 4 5 12 cubeAndBoard.floorLevel 2 ∧
    ∃ w, World.ofChallenge cubeAndBoard = .ok w ∧
      ((bearingChange Station.lofty.homeArm.pose.spot.bearing
        (Station.lofty.workspace.center 3 4).bearing).isNaN = false →
      (deliveryAt .lofty w).1 = .error .overflow) := by
  have hbuild : Station.build Station.lofty.workspace Station.lofty.settings = .ok .lofty :=
    Station.build_eq_ok (by decide +kernel) (by decide +kernel)
  have hspans : Station.lofty.Spans 3 4 5 12 cubeAndBoard.floorLevel 2 := by
    constructor <;> decide +kernel
  obtain ⟨w, hw⟩ := World.ofChallenge_of_check check_cubeAndBoard
  obtain ⟨drift, hdrift⟩ := Station.exists_drift_carry hbuild 3 4 5 12
  refine ⟨hbuild, check_cubeAndBoard, hspans, w, hw, fun hbearing => ?_⟩
  have hnone := (Station.drift?_settingTo_eq_none_iff hbuild 3 4).mpr
    ⟨by decide +kernel, hbearing⟩
  have hstop := stop_deliveryAt .lofty w
  rcases hout : deliveryAt .lofty w with ⟨result, after⟩
  rw [hout] at hstop
  rcases errand_cases hw starts_cubeAndBoard (by decide) rfl hdrift (clears_cubeAndBoard drift)
    (by decide) (Device.reliable_recorder rfl) rfl hout hstop with
    ⟨-, -, -, -, -, hfar⟩ | ⟨hover, -⟩ | ⟨hfits, -⟩
  · exact absurd hspans hfar
  · exact hover
  · exact absurd hnone hfits

end Scene

end BlockArm
