/-
# Sweeps that get ahead

A sweep sets the wrist to the lower end of its range and then to angles that are larger by its stride,
up to the upper end.  The stride is a degree at least, but sums of large doubles are rounded, and then
a step may lead back to the angle that it came from.  Such a sweep never ends.

* `Station.sweepAngle`: the angles of a sweep;
* `Station.sweepThrough`: a plan that sets the wrist to given angles and restores it;
* `Station.Ascending`: angles that go up from the lower end of the range and stay below the upper one;
* `Station.SweepAdvances`: each step from an angle of the range leads to a larger one;
* `Station.sweep_ascends_iff`: a sweep is a plan over ascending angles just if its steps advance.
-/
import BlockArm.Proofs.Arm.Workspace
import BlockArm.Proofs.Number.Step
import BlockArm.Proofs.Run.Reports

namespace BlockArm

namespace Station

open Plan

/-! ## Plans over angles -/

/-- Sets the wrist to some angles, one after the other. -/
def sweepOver : List Float → Plan Unit
  | [] => .done ()
  | angle :: angles =>
    .note .debug ("servo sweep at " ++ Number.fixed 0 angle ++ "°")
      (.call (.setWrist angle) fun _ => sweepOver angles)

/-- Sets the wrist to some angles and restores it. -/
def sweepThrough (angles : List Float) (arm : ArmState) : Plan Effect := do
  sweepOver angles
  Plan.act (.setWrist arm.wrist)
  pure (.turn 0)

/-- A sweep that gets beyond the end of its range goes over the angles before that. -/
theorem sweepTo_eq_sweepOver {high step : Float} (k : Nat) :
    ∀ {n : Nat} {angle : Float}, k < n → (∀ m < k, (· + step)^[m] angle ≤ high) →
      ¬ (· + step)^[k] angle ≤ high →
      sweepTo high step n angle = sweepOver (List.iterate (· + step) angle k) := by
  induction k with
  | zero =>
    intro n angle hn _ hbeyond
    obtain ⟨n, rfl⟩ : ∃ m, n = m + 1 := ⟨n - 1, by omega⟩
    exact if_neg hbeyond
  | succ k ih =>
    intro n angle hn hwithin hbeyond
    obtain ⟨n, rfl⟩ : ∃ m, n = m + 1 := ⟨n - 1, by omega⟩
    have hfirst : angle ≤ high := hwithin 0 (by omega)
    have hrest : sweepTo high step n (angle + step) =
        sweepOver (List.iterate (· + step) (angle + step) k) :=
      ih (by omega) (fun m hm => hwithin (m + 1) (by omega)) hbeyond
    rw [sweepTo, if_pos hfirst, hrest]
    rfl

/-- Of a sweep that goes over some angles, these are all within the range, and the next one is
beyond. -/
theorem iterate_of_sweepTo_eq {high step : Float} {β : Type} {f : Unit → Plan β}
    (hf : ∃ c next, f () = .call c next) (angles : List Float) :
    ∀ {n : Nat} {angle : Float},
      (sweepTo high step n angle).bind f = (sweepOver angles).bind f →
      angles = List.iterate (· + step) angle angles.length ∧
        (∀ m < angles.length, (· + step)^[m] angle ≤ high) ∧
        ¬ (· + step)^[angles.length] angle ≤ high := by
  obtain ⟨c, next, hcall⟩ := hf
  induction angles with
  | nil =>
    intro n angle h
    cases n with
    | zero => cases h.trans hcall
    | succ n =>
      rw [sweepTo] at h
      split at h
      · cases h.trans hcall
      · next hbeyond => exact ⟨rfl, fun m hm => absurd hm (Nat.not_lt_zero m), hbeyond⟩
  | cons first angles ih =>
    intro n angle h
    cases n with
    | zero => cases h
    | succ n =>
      rw [sweepTo] at h
      split at h
      · next hwithin =>
        obtain ⟨-, -, hstep⟩ := Plan.note.inj h
        obtain ⟨hangle, hrest⟩ := Plan.call.inj hstep
        obtain rfl := Call.setWrist.inj hangle
        obtain ⟨hiterate, hall, hbeyond⟩ := ih (congrFun hrest ())
        refine ⟨congrArg _ hiterate, fun m hm => ?_, hbeyond⟩
        cases m with
        | zero => exact hwithin
        | succ m => exact hall m (Nat.lt_of_succ_lt_succ hm)
      · cases hcall.symm.trans h

/-! ## Angles of a sweep -/

variable (st : Station)

/-- The angle of a sweep after a number of steps. -/
def sweepAngle (n : Nat) : Float :=
  (· + Settings.sweepStride st.settings)^[n] st.workspace.wrist.low

/-- The first angles of a sweep are in the range. -/
def SweepWithin (n : Nat) : Prop := ∀ m ≤ n, st.sweepAngle m ≤ st.workspace.wrist.high

/-- As long as a sweep is in the range, each of its steps leads to a larger angle. -/
def SweepAdvances : Prop := ∀ n, st.SweepWithin n → st.sweepAngle n < st.sweepAngle (n + 1)

/-- Angles that begin with the lower end of the range, go up and do not get beyond the upper end. -/
structure Ascending (angles : List Float) : Prop where
  head : angles.head? = some st.workspace.wrist.low
  increasing : angles.Pairwise (· < ·)
  within : ∀ angle ∈ angles, angle ≤ st.workspace.wrist.high

variable {st}

theorem sweepAngle_succ (n : Nat) :
    st.sweepAngle (n + 1) = st.sweepAngle n + Settings.sweepStride st.settings :=
  Function.iterate_succ_apply' _ n _

/-- The stride of a sweep is one degree at least. -/
theorem one_le_sweepStride (settings : Settings) : 1 ≤ Settings.sweepStride settings := by
  unfold Settings.sweepStride
  split
  · next hlt =>
    obtain ⟨hone, hnumber, hlt'⟩ := Number.lt_iff.mp hlt
    exact Number.le_iff.mpr ⟨hone, hnumber, hlt'.le⟩
  · decide +kernel

/-- A stride is a number, of one degree or more on the scale. -/
theorem sweepStride_spec (settings : Settings) :
    (Settings.sweepStride settings).isNaN = false ∧
      Number.unity ≤ Number.units (Settings.sweepStride settings) := by
  obtain ⟨-, hnumber, hle⟩ := Number.le_iff.mp (one_le_sweepStride settings)
  have hone : Number.units 1 = Number.unity := by decide +kernel
  exact ⟨hnumber, hone ▸ hle⟩

/-- A stride from a finite angle leads to a number. -/
theorem isNaN_add_sweepStride {angle : Float} (h : angle.isFinite = true) (settings : Settings) :
    (angle + Settings.sweepStride settings).isNaN = false := by
  obtain ⟨hnumber, -⟩ := sweepStride_spec settings
  by_cases hfinite : (Settings.sweepStride settings).isFinite = true
  · exact Number.isNaN_add (Number.isFinite_iff.mp h).1 hfinite
  · obtain ⟨s, hs⟩ := Number.exists_infinity (u := (Settings.sweepStride settings).toModel.unpack)
      hnumber (Bool.eq_false_iff.mpr hfinite)
    exact congrArg Float.Model.UnpackedFloat.isNaN (Number.unpack_infinity_add hs h).2

section Finite

variable (hlow : st.workspace.wrist.low.isFinite = true)
  (hhigh : st.workspace.wrist.high.isFinite = true)

include hlow hhigh

/-- In the range, the angles of a sweep are finite and no less than the lower end. -/
theorem sweepAngle_spec {n : Nat} (h : st.SweepWithin n) :
    (st.sweepAngle n).isFinite = true ∧
      Number.units st.workspace.wrist.low ≤ Number.units (st.sweepAngle n) := by
  induction n with
  | zero => exact ⟨hlow, le_rfl⟩
  | succ n ih =>
    obtain ⟨hfinite, hle⟩ := ih fun m hm => h m (by omega)
    have hnumber := isNaN_add_sweepStride hfinite st.settings
    obtain ⟨-, -, hstep⟩ :=
      Number.le_iff.mp (Number.le_add (zero_le_sweepStride st.settings) hnumber)
    obtain ⟨-, -, hwithin⟩ := Number.le_iff.mp (h (n + 1) le_rfl)
    have hbound := (Number.isFinite_iff.mp hlow).2
    have hbound' := (Number.isFinite_iff.mp hhigh).2
    rw [sweepAngle_succ] at hwithin ⊢
    exact ⟨Number.isFinite_iff.mpr ⟨hnumber, by omega⟩, by omega⟩

/-- A step leads to a larger angle if it does so on the scale. -/
theorem sweepAngle_lt {n : Nat} (h : st.SweepWithin n)
    (hlt : Number.units (st.sweepAngle n) < Number.units (st.sweepAngle (n + 1))) :
    st.sweepAngle n < st.sweepAngle (n + 1) := by
  obtain ⟨hfinite, -⟩ := sweepAngle_spec hlow hhigh h
  refine Number.lt_iff.mpr ⟨(Number.isFinite_iff.mp hfinite).1, ?_, hlt⟩
  rw [sweepAngle_succ]
  exact isNaN_add_sweepStride hfinite st.settings

/-- A step that leads beyond the range leads to a larger angle. -/
theorem sweepAngle_lt_of_beyond {n : Nat} (h : st.SweepWithin n)
    (hbeyond : ¬ st.sweepAngle (n + 1) ≤ st.workspace.wrist.high) :
    st.sweepAngle n < st.sweepAngle (n + 1) := by
  obtain ⟨hfinite, -⟩ := sweepAngle_spec hlow hhigh h
  obtain ⟨-, hnumber, hle⟩ := Number.le_iff.mp (h n le_rfl)
  have hnext : (st.sweepAngle (n + 1)).isNaN = false := by
    rw [sweepAngle_succ]
    exact isNaN_add_sweepStride hfinite st.settings
  obtain ⟨-, -, hlt⟩ := Number.lt_iff.mp (Number.lt_of_not_le hnext hnumber hbeyond)
  exact sweepAngle_lt hlow hhigh h (hle.trans_lt hlt)

/-- An infinite stride leads beyond the range at once. -/
theorem beyond_of_infinite {n : Nat} (h : st.SweepWithin n)
    (hinfinite : (Settings.sweepStride st.settings).isFinite = false) :
    ¬ st.sweepAngle (n + 1) ≤ st.workspace.wrist.high := by
  obtain ⟨hfinite, -⟩ := sweepAngle_spec hlow hhigh h
  obtain ⟨hnumber, hone⟩ := sweepStride_spec st.settings
  obtain ⟨s, hs⟩ := Number.exists_infinity
    (u := (Settings.sweepStride st.settings).toModel.unpack) hnumber hinfinite
  have hstride : Number.units (Settings.sweepStride st.settings) = s.apply Number.top :=
    congrArg Number.unitsOf hs
  have hangle : Number.units (st.sweepAngle (n + 1)) = s.apply Number.top := by
    rw [sweepAngle_succ]
    exact congrArg Number.unitsOf (Number.unpack_infinity_add hs hfinite).2
  intro hle
  obtain ⟨-, -, hle'⟩ := Number.le_iff.mp hle
  have hbound := (Number.isFinite_iff.mp hhigh).2
  have hpos := Number.unity_pos
  rw [hangle, ← hstride] at hle'
  cases s
  · rw [Number.apply_negative] at hstride
    omega
  · rw [Number.apply_positive] at hstride
    omega

section

variable (h : st.SweepAdvances) (hstride : (Settings.sweepStride st.settings).isFinite = true)

include h hstride

/-- A step that advances leads half a stride ahead, and to an angle that is not too large for the
stride. -/
theorem SweepAdvances.half_stride_le {n : Nat} (hn : st.SweepWithin (n + 1)) :
    Number.units (Settings.sweepStride st.settings) ≤
        2 * (Number.units (st.sweepAngle (n + 1)) - Number.units (st.sweepAngle n)) ∧
      (Number.units (st.sweepAngle (n + 1))).natAbs <
        2 ^ 55 * Number.units (Settings.sweepStride st.settings) := by
  have hbefore : st.SweepWithin n := fun m hm => hn m (by omega)
  obtain ⟨hfinite, -⟩ := sweepAngle_spec hlow hhigh hbefore
  obtain ⟨hfinite', -⟩ := sweepAngle_spec hlow hhigh hn
  obtain ⟨-, -, hlt⟩ := Number.lt_iff.mp (h n hbefore)
  obtain ⟨-, hone⟩ := sweepStride_spec st.settings
  have hpos := Number.unity_pos
  have htop := (Number.isFinite_iff.mp hfinite').2
  rw [sweepAngle_succ] at hlt htop ⊢
  exact ⟨Number.units_le_two_mul_sub hfinite hstride hlt (by omega),
    Number.natAbs_units_add_lt hfinite hstride hlt (by omega) (by omega)⟩

/-- Steps that advance add up. -/
theorem SweepAdvances.mul_stride_le {n : Nat} (hn : st.SweepWithin (n + 1)) :
    n * Number.units (Settings.sweepStride st.settings) ≤
      2 * (Number.units (st.sweepAngle (n + 1)) - Number.units (st.sweepAngle 1)) := by
  induction n with
  | zero => simp
  | succ n ih =>
    have hbefore := ih fun m hm => hn m (by omega)
    obtain ⟨hlast, -⟩ := h.half_stride_le hlow hhigh hstride hn
    push_cast
    rw [add_mul, one_mul]
    omega

end

/-- A sweep whose steps advance gets beyond the range, and that before it is given up. -/
theorem SweepAdvances.exists_beyond (h : st.SweepAdvances) :
    ∃ k < sweepBound, ¬ st.sweepAngle k ≤ st.workspace.wrist.high := by
  by_contra hnever
  push Not at hnever
  obtain ⟨N, hN⟩ : ∃ N : Nat, N = 2 ^ 57 := ⟨_, rfl⟩
  have hbound : sweepBound = 2 ^ 62 := rfl
  have hwithin : ∀ n ≤ N + 1, st.SweepWithin n := fun n hn m hm => hnever m (by omega)
  have hstride : (Settings.sweepStride st.settings).isFinite = true := by
    by_contra hinfinite
    exact beyond_of_infinite hlow hhigh (hwithin 0 (by omega)) (Bool.eq_false_iff.mpr hinfinite)
      (hnever 1 (by omega))
  obtain ⟨-, hone⟩ := sweepStride_spec st.settings
  have hpos := Number.unity_pos
  -- the steps add up to more than lies between two angles that are not too large
  have htotal := h.mul_stride_le hlow hhigh hstride (hwithin (N + 1) le_rfl)
  obtain ⟨-, hfirst⟩ := h.half_stride_le hlow hhigh hstride (hwithin 1 (by omega))
  obtain ⟨-, hlast⟩ := h.half_stride_le hlow hhigh hstride (hwithin (N + 1) le_rfl)
  have hcast : (N : Int) = 2 ^ 57 := by exact_mod_cast hN
  rw [hcast] at htotal
  rw [zero_add] at hfirst
  omega

/-- Between limits of less than 53 bits before the point, all steps advance. -/
theorem sweepAdvances_of_limits (hlow' : -9007199254740992 < st.workspace.wrist.low)
    (hhigh' : st.workspace.wrist.high < 9007199254740992) : st.SweepAdvances := by
  intro n hn
  by_cases hstride : (Settings.sweepStride st.settings).isFinite = true
  · obtain ⟨hfinite, hge⟩ := sweepAngle_spec hlow hhigh hn
    obtain ⟨-, -, hle⟩ := Number.le_iff.mp (hn n le_rfl)
    obtain ⟨-, -, hlarge⟩ := Number.lt_iff.mp hlow'
    obtain ⟨-, -, hlarge'⟩ := Number.lt_iff.mp hhigh'
    have hneg : Number.units (-9007199254740992) = -(2 ^ 53 * Number.unity) := by decide +kernel
    have hpos : Number.units 9007199254740992 = 2 ^ 53 * Number.unity := by decide +kernel
    rw [hneg] at hlarge
    rw [hpos] at hlarge'
    have hlt := Number.units_lt_add hfinite hstride (by omega) (sweepStride_spec st.settings).2
    rw [← sweepAngle_succ] at hlt
    exact sweepAngle_lt hlow hhigh hn hlt
  · exact sweepAngle_lt_of_beyond hlow hhigh hn
      (beyond_of_infinite hlow hhigh hn (Bool.eq_false_iff.mpr hstride))

end Finite

/-! ## Sweeps -/

/-- The first angles of a sweep. -/
def sweepAngles (st : Station) (k : Nat) : List Float := (List.range k).map st.sweepAngle

theorem sweepAngles_eq (k : Nat) : st.sweepAngles k =
    List.iterate (· + Settings.sweepStride st.settings) st.workspace.wrist.low k :=
  List.range_map_iterate k _ _

/-- The angles of a sweep whose steps advance go up as far as they are in the range. -/
theorem SweepAdvances.lt_of_lt (h : st.SweepAdvances) {k : Nat}
    (hwithin : ∀ m < k, st.sweepAngle m ≤ st.workspace.wrist.high) {i j : Nat} (hij : i < j)
    (hj : j < k) : st.sweepAngle i < st.sweepAngle j := by
  induction hij with
  | refl => exact h i fun m hm => hwithin m (by omega)
  | @step j hij ih =>
    obtain ⟨hi, -, hlt⟩ := Number.lt_iff.mp (ih (by omega))
    obtain ⟨-, hj', hlt'⟩ := Number.lt_iff.mp (h j fun m hm => hwithin m (by omega))
    exact Number.lt_iff.mpr ⟨hi, hj', hlt.trans hlt'⟩

theorem SweepAdvances.ascending (h : st.SweepAdvances) {k : Nat} (hk : 0 < k)
    (hwithin : ∀ m < k, st.sweepAngle m ≤ st.workspace.wrist.high) :
    st.Ascending (st.sweepAngles k) where
  head := by
    obtain ⟨k, rfl⟩ : ∃ m, k = m + 1 := ⟨k - 1, by omega⟩
    rw [sweepAngles_eq]
    rfl
  increasing := by
    rw [sweepAngles, List.pairwise_map]
    refine List.pairwise_lt_range.imp_of_mem fun _ hj hij => ?_
    exact h.lt_of_lt hwithin hij (List.mem_range.mp hj)
  within := by
    intro angle hangle
    obtain ⟨m, hm, rfl⟩ := List.mem_map.mp hangle
    exact hwithin m (List.mem_range.mp hm)

/-- Angles that a sweep goes over and that go up are reached by steps that advance. -/
theorem advances_of_ascending (hlow : st.workspace.wrist.low.isFinite = true)
    (hhigh : st.workspace.wrist.high.isFinite = true) {k : Nat}
    (h : st.Ascending (st.sweepAngles k))
    (hbeyond : ¬ st.sweepAngle k ≤ st.workspace.wrist.high) : st.SweepAdvances := by
  intro n hn
  have hnk : n < k := by
    by_contra hge
    exact hbeyond (hn k (by omega))
  rcases Nat.lt_or_ge (n + 1) k with hlt | hge
  · have hincreasing := h.increasing
    rw [sweepAngles, List.pairwise_map, List.pairwise_iff_getElem] at hincreasing
    have hpair := hincreasing n (n + 1) (by simpa using hnk) (by simpa using hlt) (by omega)
    rwa [List.getElem_range, List.getElem_range] at hpair
  · obtain rfl : k = n + 1 := by omega
    exact sweepAngle_lt_of_beyond hlow hhigh hn hbeyond

/-- **Sweeps go up and end just if their steps advance.**  In a workspace that makes sense and has
finite limits, a sweep sets the wrist to finitely many angles, which begin with the lower limit, are
strictly increasing and do not get beyond the upper one, and restores it then, just if each step from
an angle in the range leads to a larger one.  Between limits of less than `2 ^ 53` degrees all steps
do, whatever the step that is set. -/
theorem sweep_ascends_iff (hcheck : st.workspace.check = .ok ())
    (hlow : st.workspace.wrist.low.isFinite = true)
    (hhigh : st.workspace.wrist.high.isFinite = true) :
    ((∃ angles, st.Ascending angles ∧ ∀ arm, st.sweep arm = sweepThrough angles arm) ↔
        st.SweepAdvances) ∧
      (-9007199254740992 < st.workspace.wrist.low →
        st.workspace.wrist.high < 9007199254740992 → st.SweepAdvances) := by
  refine ⟨⟨?_, fun hadvances => ?_⟩, sweepAdvances_of_limits hlow hhigh⟩
  · rintro ⟨angles, hascending, hplan⟩
    have hsweep := hplan st.homeArm
    simp only [sweep, sweepThrough, Plan.bind_eq] at hsweep
    obtain ⟨hiterate, -, hbeyond⟩ := iterate_of_sweepTo_eq ⟨_, _, rfl⟩ angles hsweep
    rw [← sweepAngles_eq] at hiterate
    exact advances_of_ascending hlow hhigh (hiterate ▸ hascending) hbeyond
  · obtain ⟨n, hn, hbeyond⟩ := hadvances.exists_beyond hlow hhigh
    classical
    have hex : ∃ k, ¬ st.sweepAngle k ≤ st.workspace.wrist.high := ⟨n, hbeyond⟩
    have hwithin : ∀ m < Nat.find hex, st.sweepAngle m ≤ st.workspace.wrist.high := fun m hm =>
      not_not.mp (Nat.find_min hex hm)
    obtain ⟨-, -, -, -, hrange⟩ := Workspace.check_eq_ok_iff.mp hcheck
    obtain ⟨hnumber, hnumber', hlt⟩ := Number.lt_iff.mp hrange
    have hpos : 0 < Nat.find hex := by
      rw [Nat.find_pos]
      exact not_not.mpr (Number.le_iff.mpr ⟨hnumber, hnumber', hlt.le⟩)
    have hbound : Nat.find hex < sweepBound := (Nat.find_min' hex hbeyond).trans_lt hn
    refine ⟨st.sweepAngles (Nat.find hex), hadvances.ascending hpos hwithin, fun arm => ?_⟩
    rw [sweepAngles_eq, sweep, sweepThrough, sweepTo_eq_sweepOver _ hbound hwithin (Nat.find_spec hex)]

/-- With the standard limits, steps that are no number are replaced by steps of a degree. -/
def unstepped : Station := { workspace := {}, settings := { sweepStep := 0 / 0 } }

theorem sweep_ascends_unstepped : unstepped.workspace.check = .ok () ∧
    ∃ angles, unstepped.Ascending angles ∧
      ∀ arm, unstepped.sweep arm = sweepThrough angles arm := by
  have hcheck : unstepped.workspace.check = .ok () :=
    Workspace.check_eq_ok_iff.mpr (by decide +kernel)
  obtain ⟨hiff, hlimits⟩ := sweep_ascends_iff hcheck (by decide +kernel) (by decide +kernel)
  exact ⟨hcheck, hiff.mpr (hlimits (by decide +kernel) (by decide +kernel))⟩

/-- Limits that leave no room for steps of a degree: `2 ^ 53 - 1` and `2 ^ 53 + 4`. -/
def coarse : Station where
  workspace := { wrist := ⟨9007199254740991, 9007199254740996⟩ }
  settings := { sweepStep := 1 }

/-- From `2 ^ 53` on, a step of a degree is lost in rounding, so that the same angle is sent again and
again. -/
theorem exists_sweep_not_ends : ∃ st : Station, st.workspace.check = .ok () ∧
    st.workspace.wrist.low.isFinite = true ∧ st.workspace.wrist.high.isFinite = true ∧
    ¬ st.SweepEnds ∧ st.sweepAngle 1 ≤ st.workspace.wrist.high ∧
    st.sweepAngle 2 = st.sweepAngle 1 := by
  have hfixed : coarse.sweepAngle 1 + Settings.sweepStride coarse.settings =
      coarse.sweepAngle 1 := by decide +kernel
  refine ⟨coarse, Workspace.check_eq_ok_iff.mpr (by decide +kernel), by decide +kernel,
    by decide +kernel, ?_, by decide +kernel, hfixed⟩
  rintro ⟨k, -, hbeyond⟩
  cases k with
  | zero => exact hbeyond (by decide +kernel)
  | succ k =>
    refine hbeyond ?_
    have hstuck := Function.iterate_fixed (f := (· + Settings.sweepStride coarse.settings)) hfixed k
    have hwithin : coarse.sweepAngle 1 ≤ coarse.workspace.wrist.high := by decide +kernel
    rw [← hstuck] at hwithin
    exact hwithin

end Station

end BlockArm
