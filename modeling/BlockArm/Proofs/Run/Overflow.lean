/-
# Numbers that fit into 32 bits

The turns that are rounded, the sums of a tour and the rotations of a held block are all numbers of 32
bits, if this is so where the wrist is centred.  Other turns are short enough: a turn as far as can be
asked for hardly exceeds 32 bits, and the legs of a tour are off by little more than a full turn each.

* `Station.below_of_mem_legSettings`: the legs of a way are off by little;
* `Station.covers_wrist_of_reached`: the wrist stays in its range, unless it is no number;
* `Scene.InOrder`: the wrist is in its range, and the blocks are those of a challenge that is played;
* `Scene.Stage.Fits`: no result of a stage leaves the range of 32 bits;
* `Scene.stages_fit_iff`: when all stages of all runs fit, and no run breaks down for an overflow.
-/
import BlockArm.Proofs.Arm.Workspace
import BlockArm.Proofs.Run.Reports

namespace BlockArm

open Number (Below)
open WristSetting (misses)

variable {σ : Type}

/-! ## How far the arm is off -/

namespace Station

open Plan

variable {st : Station} {d : Device σ}

/-- The drifts of a way with a single leg are those of that leg. -/
theorem legSettings_singleton (st : Station) (d : Device σ) (m x y : Int32) (r : Rig σ) :
    st.legSettings d m [(x, y)] r = st.legThen d x y r fun _ _ => [] := by
  refine congrArg (st.legThen d x y r) (funext fun setting => funext fun r => ?_)
  cases setting.drift?.bind (addTurns? m) <;> rfl

/-- On a way that begins with a wrist in its range, no leg is off by much. -/
theorem below_of_mem_legSettings (hle : st.workspace.wrist.low ≤ st.workspace.wrist.high)
    (columns : List (Int32 × Int32)) :
    ∀ {m : Int32} {r : Rig σ}, st.workspace.wrist.covers r.arm.wrist = true →
      ∀ turn ∈ misses (st.legSettings d m columns r), Below 1085 (turn.after - turn.before) := by
  -- the induction follows the columns; every leg sets the wrist to an angle of the range
  induction columns with
  | nil => exact fun _ turn hturn => absurd hturn List.not_mem_nil
  | cons column columns ih =>
    intro m r hwrist turn hturn
    obtain ⟨x, y⟩ := column
    have hmeets := ensures_exec (st.ensures_travel_followed (d := d) r.arm x y r.device)
    rw [WristSetting.mem_misses, legSettings, legThen] at hturn
    rcases hexec : (st.travel r.arm x y).exec d r with ⟨outcome, gone⟩
    rw [hexec] at hturn hmeets
    cases outcome with
    | fault fault => exact absurd hturn List.not_mem_nil
    | broken b => exact absurd hturn List.not_mem_nil
    | value v =>
      obtain ⟨there, setting⟩ := v
      obtain ⟨harm, hangle, spot, hfollow⟩ := hmeets
      rcases List.mem_cons.mp hturn with hsetting | hturn
      · exact WristRange.below_follow (WristRange.covers_iff.mp hwrist) (below_bearingChange _ _)
          (hfollow.symm.trans hsetting.symm)
      · split at hturn
        · refine ih ?_ turn (WristSetting.mem_misses.mpr hturn)
          rw [harm, hangle, hfollow]
          exact WristRange.covers_settle hle _ _
        · exact absurd hturn List.not_mem_nil

theorem length_legSettings_le (st : Station) (d : Device σ) (columns : List (Int32 × Int32)) :
    ∀ (m : Int32) (r : Rig σ), (st.legSettings d m columns r).length ≤ columns.length := by
  induction columns with
  | nil => exact fun _ _ => le_rfl
  | cons column columns ih =>
    intro m r
    rw [legSettings, legThen]
    rcases (st.travel r.arm column.1 column.2).exec d r with ⟨outcome, gone⟩
    cases outcome with
    | value v =>
      refine Nat.succ_le_succ ?_
      split
      · exact ih _ gone
      · exact Nat.zero_le _
    | fault fault => exact Nat.zero_le _
    | broken b => exact Nat.zero_le _

/-- The turns that a statement rounds are those of the legs of a way, or there is one at most. -/
theorem roundings_cases (st : Station) (d : Device σ) (statement : Statement) (r : Rig σ) :
    (∃ columns : List (Int32 × Int32), columns.length ≤ 19 ∧
      st.roundings d statement r = misses (st.legSettings d 0 columns r)) ∨
    (∃ degrees : Int32, (st.roundings d statement r).Sublist
      [⟨r.arm.wrist, (st.workspace.turn r.arm.wrist (Number.ofInt32 degrees)).angle⟩]) ∨
    (st.roundings d statement r).Sublist [⟨r.arm.wrist, st.workspace.wristCenter⟩] := by
  obtain ⟨line, command⟩ := statement
  cases command with
  | move x y =>
    exact .inl ⟨[(x, y)], by simp, congrArg misses (st.legSettings_singleton d 0 x y r).symm⟩
  | lift z => exact .inl ⟨[], by decide, rfl⟩
  | grip => exact .inl ⟨[], by decide, rfl⟩
  | release => exact .inl ⟨[], by decide, rfl⟩
  | turn degrees =>
    refine .inr (.inl ⟨degrees, ?_⟩)
    simp only [roundings, wristSettings]
    split
    · exact List.Sublist.refl _
    · exact List.nil_sublist _
    · exact List.nil_sublist _
  | diagnose arguments =>
    cases arguments with
    | nil =>
      refine .inr (.inr ?_)
      simp only [roundings]
      split
      · exact List.Sublist.refl _
      · exact List.nil_sublist _
      · exact List.nil_sublist _
    | cons mode more =>
      by_cases htour : mode = 1
      · refine .inl ⟨tourColumns ++ [(r.arm.cell.x, r.arm.cell.y)], ?_, ?_⟩
        · show tourColumns.length + 1 ≤ 19
          decide
        · simp only [roundings, wristSettings, if_pos htour]
      · exact .inl ⟨[], by decide, by simp only [roundings, wristSettings, if_neg htour]; rfl⟩

end Station

/-! ## Sums of turns -/

/-- Few turns that are small have small sums. -/
theorem natAbs_drift_le {turns : List ServoTurn} {n : Nat}
    (h : ∀ turn ∈ turns, turn.degrees.natAbs ≤ n) :
    ∀ k, (drift turns k).natAbs ≤ turns.length * n := by
  induction turns with
  | nil =>
    intro k
    rw [drift, List.take_nil]
    exact Nat.zero_le _
  | cons turn turns ih =>
    intro k
    obtain ⟨hfirst, hrest⟩ := List.forall_mem_cons.mp h
    cases k with
    | zero => exact Nat.zero_le _
    | succ k =>
      have hsum := ih hrest k
      rw [drift_cons, List.length_cons, Nat.add_mul]
      omega

/-- Small turns, and not too many of them, fit together. -/
theorem sumsFit_of_below {turns : List ServoTurn} (hlength : turns.length ≤ 19)
    (hbelow : ∀ turn ∈ turns, Below 1085 (turn.after - turn.before)) : SumsFit 0 turns := by
  refine ⟨fun turn hturn => ServoTurn.fits_of_below ((hbelow turn hturn).mono (by decide)),
    fun k => ?_⟩
  have hdrift := natAbs_drift_le (n := 587) (fun turn hturn => by
    have hlt := turn.natAbs_degrees_lt (by decide) (hbelow turn hturn)
    omega) k
  have hbound := Nat.mul_le_mul_right 587 hlength
  rw [zero_add]
  exact ⟨by omega, by omega⟩

/-- One turn fits if it fits by itself. -/
theorem sumsFit_of_sublist_singleton {turns : List ServoTurn} {turn : ServoTurn}
    (h : turns.Sublist [turn]) (hfits : turn.Fits) : SumsFit 0 turns := by
  rcases List.sublist_singleton.mp h with rfl | rfl
  · exact sumsFit_zero_nil
  · exact sumsFit_singleton.mpr hfits

/-! ## Wrists in their range -/

namespace Station

variable {st : Station}

/-- All plans set the wrist to angles that the range covers. -/
theorem upholds_covers
    (hcenter : st.workspace.wrist.contains st.workspace.wristCenter = true) :
    st.Upholds st.workspace.wrist.covers
      (fun arm => st.workspace.wrist.covers arm.wrist = true) where
  settled _ _ := WristRange.covers_settle (WristRange.low_le_high hcenter) _ _
  swept h := WristRange.covers_iff.mpr (.inr h)
  centered := WristRange.covers_iff.mpr (.inr hcenter)
  held h := h
  turned _ h := h
  moved h _ := h
  lifted h _ := h
  parked _ := WristRange.covers_iff.mpr (.inr hcenter)

/-- However the arm was used, the range covers the angle that its wrist is believed to have. -/
theorem covers_wrist_of_reached {arm : ArmState}
    (hcenter : st.workspace.wrist.contains st.workspace.wristCenter = true)
    (hreached : st.Reached (fun _ => True) (fun _ => True) arm) :
    st.workspace.wrist.covers arm.wrist = true := by
  have hupholds := upholds_covers hcenter
  refine hupholds.reached
    (fun arm _ => Workspace.covers_gripAngle (WristRange.low_le_high hcenter) _)
    hupholds.centered ?_ hreached
  intro σ d r hr _
  exact ((keeps_home hupholds fun _ => hr).exec (T := fun _ => True)
    (fun _ _ _ _ => trivial) trivial hr).2

end Station

/-! ## Scenes in order -/

namespace Scene

/-- The range covers the angle of the wrist, and the blocks are the stock of a challenge. -/
structure InOrder (st : Station) (s : Scene σ) : Prop where
  wrist : st.workspace.wrist.covers s.rig.arm.wrist = true
  stocked : ∀ w, s.world = some w → ∃ types, w.Stocked types

/-- No product, no sum and no rotation that a stage computes leaves the range of 32 bits. -/
structure Stage.Fits (st : Station) (d : Device σ) (x : Stage σ) : Prop where
  turns : SumsFit 0 (st.roundings d x.statement x.before.rig)
  rotations : ∀ b, x.before.held? = some b →
    ∀ degrees : Int32, IsInt32 (b.rotation.toInt + degrees.toInt % 360)

variable {st : Station} {d : Device σ} {s : Scene σ}

theorem InOrder.shaped (h : s.InOrder st) {b : Block} (hheld : s.held? = some b) : b.Shaped := by
  obtain ⟨w, hworld, hw⟩ := Option.bind_eq_some_iff.mp hheld
  obtain ⟨types, hstocked⟩ := h.stocked w hworld
  exact hstocked.shaped b.id b (World.owned?_of_held hw)

/-- The arm is where the plan of a statement has left it. -/
theorem arm_perform (st : Station) (d : Device σ) (statement : Statement) (s : Scene σ) :
    (perform st d statement s).2.rig.arm =
      ((st.plan s.rig.arm statement).exec d s.rig).2.arm := by
  obtain ⟨rig, world⟩ := s
  simp only [perform]
  rcases (st.plan rig.arm statement).exec d rig with ⟨outcome, after⟩
  cases outcome with
  | value effect => exact (affect_rig effect ⟨after, world⟩).2
  | fault fault => rfl
  | broken b => rfl

/-- Statements keep the scene in order, whether they succeed or not. -/
theorem InOrder.perform (h : s.InOrder st)
    (hcenter : st.workspace.wrist.contains st.workspace.wristCenter = true)
    (statement : Statement) : (Scene.perform st d statement s).2.InOrder st := by
  constructor
  · have hplan : (st.plan s.rig.arm statement).Keeps False _ _ _ :=
      Station.keeps_plan (Station.upholds_covers hcenter) h.wrist statement fun _ =>
        Workspace.covers_gripAngle (WristRange.low_le_high hcenter) _
    rw [arm_perform]
    exact (hplan.exec (T := fun _ => True) (fun _ _ _ _ => trivial) trivial h.wrist).2
  · intro w hworld
    obtain ⟨operations, hplays⟩ := plays_perform st d statement s
    rw [hplays, Option.map_eq_some_iff] at hworld
    obtain ⟨before, hbefore, rfl⟩ := hworld
    obtain ⟨types, hstocked⟩ := h.stocked before hbefore
    exact ⟨types, hstocked.afterAll operations⟩

/-- So every stage of a run begins in order. -/
theorem InOrder.before (h : s.InOrder st)
    (hcenter : st.workspace.wrist.contains st.workspace.wristCenter = true) {program : Program} :
    ∀ x ∈ stages st d program (s.begin program), x.before.InOrder st := by
  refine before_of_mem_stages (I := InOrder st) (fun statement s hs => ?_) ?_
  · have hafter := hs.perform (d := d) hcenter statement
    rcases hperform : Scene.perform st d statement s with ⟨outcome, after⟩
    rw [hperform] at hafter
    cases outcome with
    | value u => exact hafter
    | fault fault => trivial
    | broken b => trivial
  · exact ⟨(s.begin_rig program).2 ▸ h.wrist, h.stocked⟩

/-- An arm that was used, in a challenge that was played with, is in order. -/
theorem inOrder_of_reached
    (hcenter : st.workspace.wrist.contains st.workspace.wristCenter = true)
    (hreached : st.Reached (fun _ => True) (fun _ => True) s.rig.arm)
    (hplayed : ∀ w, s.world = some w → ∃ c start operations,
      World.ofChallenge c = .ok start ∧ w = start.afterAll operations) : s.InOrder st where
  wrist := Station.covers_wrist_of_reached hcenter hreached
  stocked w hworld := by
    obtain ⟨c, start, operations, hstart, rfl⟩ := hplayed w hworld
    obtain ⟨types, -, hstocked⟩ := World.ofChallenge_stocked hstart
    exact ⟨types, hstocked.afterAll operations⟩

/-! ## Stages -/

/-- A stage that begins in order fits, if it fits where the wrist is centred. -/
theorem InOrder.fits {x : Stage σ} (h : x.before.InOrder st)
    (hrange : st.workspace.wrist.Moderate)
    (hle : st.workspace.wrist.low ≤ st.workspace.wrist.high)
    (hfits : ∀ a, st.workspace.wrist.contains a = true →
      (ServoTurn.mk a st.workspace.wristCenter).Fits) : x.Fits st d := by
  have hwrist := WristRange.covers_iff.mp h.wrist
  refine ⟨?_, fun b hheld degrees => ?_⟩
  · rcases st.roundings_cases d x.statement x.before.rig with
      ⟨columns, hlength, heq⟩ | ⟨degrees, hturn⟩ | hcenter
    · -- the legs of a tour are off by little, and they are few
      have hmisses := WristSetting.length_misses_le (st.legSettings d 0 columns x.before.rig)
      have hlegs := st.length_legSettings_le d columns 0 x.before.rig
      rw [heq]
      exact sumsFit_of_below (hmisses.trans (hlegs.trans hlength))
        (Station.below_of_mem_legSettings hle columns h.wrist)
    · exact sumsFit_of_sublist_singleton hturn (ServoTurn.fits_of_below
        ((WristRange.below_turn hrange hwrist degrees).mono (by decide)))
    · refine sumsFit_of_sublist_singleton hcenter ?_
      rcases hwrist with hnan | hcontains
      · refine ServoTurn.fits_of_below fun hnumber => ?_
        have hwrist' := (Number.isNaN_terms_sub hnumber).2
        exact absurd (hnan.symm.trans hwrist') (by decide)
      · exact hfits _ hcontains
  · obtain ⟨-, hlow, hhigh⟩ := (h.shaped hheld).rotation_range
    rcases b.blockType.toInt_symmetry with hs | hs <;> rw [hs] at hhigh <;> constructor <;> omega

/-- A scene with the wrist at an angle. -/
def atAngle (st : Station) (a : Float) : Scene Recorder :=
  { rig := { st.rig {} with arm := { st.homeArm with wrist := a } } }

/-- Centring the wrist of that scene is a stage that rounds the turn to the centre. -/
theorem exists_stage_atAngle (st : Station) (a : Float) :
    ∃ x ∈ stages st .recorder [⟨1, .diagnose []⟩] ((atAngle st a).begin [⟨1, .diagnose []⟩]),
      st.roundings .recorder x.statement x.before.rig =
        [⟨a, st.workspace.wristCenter⟩] := by
  set s := (atAngle st a).begin [⟨1, .diagnose []⟩] with hs
  have hstop : s.rig.stop = false := by
    rw [hs, begin, say, Rig.stop_say]
    rfl
  obtain ⟨hdevice, harm⟩ := (atAngle st a).begin_rig [⟨1, .diagnose []⟩]
  refine ⟨⟨⟨1, .diagnose []⟩, s⟩, ?_, ?_⟩
  · rw [stages, hstop, if_neg Bool.false_ne_true]
    exact List.mem_cons_self
  · simp only [Station.roundings]
    rw [hs, hdevice, harm]
    rfl

/-- **Numbers of 32 bits.**  For a moderate range of the servo, no product, sum or rotation leaves the
range of 32 bits in any stage of any run, and no run breaks down for an overflow, just if centring the
wrist never comes to one.  This is so if the ends of the range are at most 4294967309 degrees apart,
and not if they are two degrees farther apart.  Scenes are in order, however the arm was used and the
blocks were played with.  And whatever the range, a run breaks down for an overflow just at a stage
whose turns do not fit, and the held block is turned by the exact sum where they do. -/
theorem stages_fit_iff (hrange : st.workspace.wrist.Moderate)
    (hle : st.workspace.wrist.low ≤ st.workspace.wrist.high) :
    ((∀ (σ : Type) (d : Device σ) (program : Program) (s : Scene σ), s.InOrder st →
        ∀ x ∈ stages st d program (s.begin program), x.Fits st d) ↔
      ∀ a, st.workspace.wrist.contains a = true →
        (ServoTurn.mk a st.workspace.wristCenter).Fits) ∧
    ((∀ (σ : Type) (d : Device σ) (program : Program) (s : Scene σ), s.InOrder st →
        (run st d program s).1 ≠ .error .overflow) ↔
      ∀ a, st.workspace.wrist.contains a = true →
        (ServoTurn.mk a st.workspace.wristCenter).Fits) ∧
    (st.workspace.wrist.high - st.workspace.wrist.low ≤ 4294967309 →
      ∀ a, st.workspace.wrist.contains a = true →
        (ServoTurn.mk a st.workspace.wristCenter).Fits) ∧
    (4294967311 ≤ st.workspace.wrist.high - st.workspace.wrist.low →
      ∃ a, st.workspace.wrist.contains a = true ∧
        ¬ (ServoTurn.mk a st.workspace.wristCenter).Fits) ∧
    (∀ (σ : Type) (s : Scene σ), st.Reached (fun _ => True) (fun _ => True) s.rig.arm →
      (∀ w, s.world = some w → ∃ c start operations,
        World.ofChallenge c = .ok start ∧ w = start.afterAll operations) → s.InOrder st) ∧
    (∀ (σ : Type) (d : Device σ) (program : Program) (s : Scene σ),
      (run st d program s).1 = .error .overflow ↔
        ∃ x ∈ stages st d program (s.begin program),
          ¬ SumsFit 0 (st.roundings d x.statement x.before.rig)) ∧
    ∀ (σ : Type) (d : Device σ) (x : Stage σ) (degrees : Int32) (rig : Rig σ),
      (st.plan x.before.rig.arm x.statement).exec d x.before.rig = (.value (.turn degrees), rig) →
        SumsFit 0 (st.roundings d x.statement x.before.rig) ∧
        degrees.toInt = ((st.roundings d x.statement x.before.rig).map ServoTurn.degrees).sum := by
  have hcenter := (WristRange.center_spec hrange hle).1
  have hcentred : ∀ a, st.workspace.wrist.contains a = true → (atAngle st a).InOrder st :=
    fun a ha => ⟨WristRange.covers_iff.mpr (.inr ha), fun w hworld => absurd hworld (by simp [atAngle])⟩
  refine ⟨⟨fun hall a ha => ?_, fun hfits σ d program s hs x hx => ?_⟩,
    ⟨fun hall a ha => ?_, fun hfits σ d program s hs hrun => ?_⟩, fun hspan a ha => ?_,
    fun hspan => ?_, fun σ s => inOrder_of_reached hcenter, fun σ d program s => run_overflow_iff,
    fun σ d x degrees rig h => ?_⟩
  · obtain ⟨x, hx, hturns⟩ := exists_stage_atAngle st a
    exact sumsFit_singleton.mp (hturns ▸ (hall Recorder .recorder _ _ (hcentred a ha) x hx).turns)
  · exact (hs.before hcenter x hx).fits hrange hle hfits
  · obtain ⟨x, hx, hturns⟩ := exists_stage_atAngle st a
    by_contra hfits
    refine hall Recorder .recorder _ _ (hcentred a ha) (run_overflow_iff.mpr ⟨x, hx, ?_⟩)
    rw [Stage.Overflows, hturns]
    exact mt sumsFit_singleton.mp hfits
  · obtain ⟨x, hx, hover⟩ := run_overflow_iff.mp hrun
    exact hover ((hs.before hcenter x hx).fits hrange hle hfits).turns
  · exact ServoTurn.fits_of_below (WristRange.below_center hrange ha hspan)
  · obtain ⟨a, ha, hfinite, hsmall, hlong⟩ :=
      WristRange.exists_far_from_center hrange hle hspan
    exact ⟨a, ha, ServoTurn.not_fits_of_le hfinite hsmall hlong⟩
  · obtain ⟨hover, hexact⟩ := st.tallies_plan d x.statement x.before.rig
    rw [h] at hover hexact
    exact ⟨not_not.mp fun hfits => absurd (hover.mpr hfits) (by simp),
      (hexact degrees rfl).trans (zero_add _)⟩

/-- With the standard limits everything fits, and no run breaks down for an overflow. -/
theorem stages_fit_standard : Station.standard.workspace.wrist.Moderate ∧
    Station.standard.workspace.wrist.low ≤ Station.standard.workspace.wrist.high ∧
    (∀ (σ : Type) (d : Device σ) (program : Program) (s : Scene σ), s.InOrder .standard →
      ∀ x ∈ stages .standard d program (s.begin program), x.Fits .standard d) ∧
    ∀ (σ : Type) (d : Device σ) (program : Program) (s : Scene σ), s.InOrder .standard →
      (run .standard d program s).1 ≠ .error .overflow := by
  have hrange : Station.standard.workspace.wrist.Moderate := by decide +kernel
  have hle : Station.standard.workspace.wrist.low ≤ Station.standard.workspace.wrist.high := by
    decide +kernel
  obtain ⟨hstages, hruns, hspan, -⟩ := stages_fit_iff hrange hle
  have hfits := hspan (by decide +kernel)
  exact ⟨hrange, hle, hstages.mpr hfits, hruns.mpr hfits⟩

/-- Two turns as far as can be asked for, and back at once. -/
def whirl : Program := [⟨1, .turn 2147483647⟩, ⟨2, .turn 2147483647⟩, ⟨3, .diagnose []⟩]

/-- The turn back comes to 47721859 quarter turns, which are more degrees than 32 bits hold, and the
run breaks down. -/
theorem exists_stage_not_fits :
    Station.build Station.spacious.workspace Station.spacious.settings = .ok .spacious ∧
    (run .spacious .recorder whirl { rig := Station.spacious.rig {} }).1 = .error .overflow ∧
    ∃ x ∈ stages .spacious .recorder whirl
        (({ rig := Station.spacious.rig {} } : Scene Recorder).begin whirl),
      ¬ x.Fits .spacious .recorder ∧
      ∃ turn ∈ Station.spacious.roundings .recorder x.statement x.before.rig,
        turn.degrees = -4294967310 := by
  have hany : ((stages .spacious .recorder whirl
      (({ rig := Station.spacious.rig {} } : Scene Recorder).begin whirl)).any fun x =>
        (Station.spacious.roundings .recorder x.statement x.before.rig).any fun turn =>
          turn.degrees = -4294967310) = true := by
    decide +kernel
  obtain ⟨x, hx, hturns⟩ := List.any_eq_true.mp hany
  obtain ⟨turn, hturn, heq⟩ := List.any_eq_true.mp hturns
  have hdegrees : turn.degrees = -4294967310 := of_decide_eq_true heq
  have hover : x.Overflows .spacious .recorder := by
    intro hfits
    have hfit := (hfits.products turn hturn).1
    rw [hdegrees] at hfit
    omega
  exact ⟨Station.build_eq_ok (by decide +kernel) (by decide +kernel),
    run_overflow_iff.mpr ⟨x, hx, hover⟩, x, hx, fun hfits => hover hfits.turns, turn, hturn, hdegrees⟩

end Scene

end BlockArm
