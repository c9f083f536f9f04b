/-
# What an accepted workspace is good for

The check of a workspace is meant to leave something to reach and a wrist range with a middle.  It
does so for measures of any size, as long as they are finite.  The comparisons by which a radius or
the shoulder's distance is refused are false for what is no number, so that such a measure is taken,
and nothing is within reach then.  The shoulder's height is not looked at, and the middle of the
wrist range is computed from a sum that can be too large for a double.

* `WristRange.Balanced`, `Workspace.Measured`: what the check leaves open;
* `WristRange.contains_center_iff`: when the middle of the range is in it;
* `WristRange.infinite_center_of_not_covers`: what the middle is if it is not;
* `Workspace.covers_gripAngle`: the range covers the angles for gripping;
* `Workspace.reaches_ahead`, `Workspace.reaches_infinity`: points within reach;
* `Workspace.measured_of_reaches`: a workspace in which some point is within reach;
* `Workspace.check_sound_iff`: what an accepted workspace is good for.
-/
import BlockArm.Reach
import BlockArm.Proofs.Number.Mean
import BlockArm.Proofs.Wrist.Range

namespace BlockArm

open Number

/-! ## The middle of the wrist range -/

namespace WristRange

/-- The ends of the range have a finite sum, or one of them only is infinite. -/
def Balanced (r : WristRange Float) : Prop :=
  (r.low + r.high).isFinite = true ∨ r.low.isFinite ≠ r.high.isFinite

variable {r : WristRange Float}

/-- If one end only is infinite, the middle is that end. -/
theorem contains_infinite_center (h : r.low < r.high)
    (hone : r.low.isFinite ≠ r.high.isFinite) : r.contains ((r.low + r.high) / 2) = true := by
  obtain ⟨hlow, hhigh, hlt⟩ := lt_iff.mp h
  -- whichever end it is, the middle compares as that end does
  have hcontains : ∀ a : Float, a.isNaN = false → units r.low ≤ units a →
      units a ≤ units r.high → ((r.low + r.high) / 2).toModel.unpack = a.toModel.unpack →
      r.contains ((r.low + r.high) / 2) = true := by
    intro a ha hge hle hread
    have hunits : units ((r.low + r.high) / 2) = units a := congrArg unitsOf hread
    have hnumber : ((r.low + r.high) / 2).isNaN = false :=
      (congrArg Float.Model.UnpackedFloat.isNaN hread).trans ha
    exact contains_iff.mpr ⟨le_iff.mpr ⟨hlow, hnumber, hge.trans_eq hunits.symm⟩,
      le_iff.mpr ⟨hnumber, hhigh, hunits.trans_le hle⟩⟩
  by_cases hfinite : r.high.isFinite = true
  · obtain ⟨s, hs⟩ := exists_infinity (u := r.low.toModel.unpack) hlow
      (Bool.eq_false_iff.mpr fun h => hone (h.trans hfinite.symm))
    refine hcontains r.low hlow le_rfl hlt.le ?_
    rw [unpack_div_two (unpack_infinity_add hs hfinite).1, hs]
  · rw [Bool.not_eq_true] at hfinite
    have hfinite' : r.low.isFinite = true := by
      rw [hfinite] at hone
      exact Bool.ne_false_iff.mp hone
    obtain ⟨s, hs⟩ := exists_infinity (u := r.high.toModel.unpack) hhigh hfinite
    refine hcontains r.high hhigh hlt.le le_rfl ?_
    rw [unpack_div_two (unpack_infinity_add hs hfinite').2, hs]

/-- A middle that is a number was not computed from opposite infinities, which have no sum. -/
theorem isFinite_high_of_center (h : r.low < r.high)
    (hnumber : ((r.low + r.high) / 2).isNaN = false) (hsame : r.low.isFinite = r.high.isFinite) :
    r.high.isFinite = true := by
  obtain ⟨hlow, hhigh, hlt⟩ := lt_iff.mp h
  by_contra hfinite
  rw [Bool.not_eq_true] at hfinite
  obtain ⟨s, hs, -⟩ := exists_mean_infinity hnumber
    (Bool.eq_false_iff.mpr fun hsum => Bool.false_ne_true (hfinite.symm.trans (isFinite_add hsum).2))
  obtain ⟨t, ht⟩ := exists_infinity (u := r.low.toModel.unpack) hlow (hsame.trans hfinite)
  obtain ⟨t', ht'⟩ := exists_infinity (u := r.high.toModel.unpack) hhigh hfinite
  rw [units, units, ht, ht', unitsOf_infinity, unitsOf_infinity] at hlt
  rw [unpack_add, ht, ht'] at hs
  have htop := top_pos
  cases t <;> cases t' <;> simp only [apply_positive, apply_negative] at hlt
  case negative.positive =>
    exact absurd (congrArg Float.Model.UnpackedFloat.isNaN hs).symm Bool.false_ne_true
  all_goals omega

/-- A middle between the ends was not computed from a sum of finite ends that is too large, and not
from opposite infinities. -/
theorem balanced_of_contains (h : r.low < r.high)
    (hcontains : r.contains ((r.low + r.high) / 2) = true) : r.Balanced := by
  obtain ⟨hge, hle⟩ := contains_iff.mp hcontains
  obtain ⟨-, hnumber, hge'⟩ := le_iff.mp hge
  obtain ⟨-, -, hle'⟩ := le_iff.mp hle
  by_cases hsum : (r.low + r.high).isFinite = true
  · exact .inl hsum
  obtain ⟨s, -, hmean⟩ := exists_mean_infinity hnumber (Bool.eq_false_iff.mpr hsum)
  have hunits : units ((r.low + r.high) / 2) = s.apply top := congrArg unitsOf hmean
  refine .inr fun hsame => ?_
  -- an infinite middle would lie beyond one of the finite ends
  have hfinite := isFinite_high_of_center h hnumber hsame
  have hbound := (isFinite_iff.mp (hsame.trans hfinite)).2
  have hbound' := (isFinite_iff.mp hfinite).2
  cases s <;> simp only [apply_positive, apply_negative] at hunits <;> omega

/-- The middle of a range is in it, unless its sum cannot be computed. -/
theorem contains_center_iff (h : r.low < r.high) :
    r.contains ((r.low + r.high) / 2) = true ↔ r.Balanced := by
  refine ⟨balanced_of_contains h, fun hbalanced => ?_⟩
  obtain ⟨hlow, hhigh, hlt⟩ := lt_iff.mp h
  rcases hbalanced with hsum | hone
  · exact contains_iff.mpr (mean_between (le_iff.mpr ⟨hlow, hhigh, hlt.le⟩) hsum)
  · exact contains_infinite_center h hone

/-- A middle that is a number but not in the range is infinite, while the ends are not. -/
theorem infinite_center_of_not_covers (h : r.low < r.high)
    (hcovers : r.covers ((r.low + r.high) / 2) = false) :
    r.low.isFinite = true ∧ r.high.isFinite = true ∧ ((r.low + r.high) / 2).isFinite = false := by
  obtain ⟨hnumber, hcontains⟩ := Bool.or_eq_false_iff.mp hcovers
  have hbalanced := mt (contains_center_iff h).mpr (Bool.eq_false_iff.mp hcontains)
  obtain ⟨hsum, hsame⟩ := not_or.mp hbalanced
  obtain ⟨s, -, hmean⟩ := exists_mean_infinity hnumber (Bool.eq_false_iff.mpr hsum)
  have hhigh := isFinite_high_of_center h hnumber (not_not.mp hsame)
  refine ⟨(not_not.mp hsame).trans hhigh, hhigh, ?_⟩
  exact congrArg Float.Model.UnpackedFloat.isFinite hmean

end WristRange

/-! ## Points within reach -/

namespace Workspace

/-- The radii and the shoulder's distance are numbers, and the shoulder's height is finite unless
the arm reaches infinitely far. -/
structure Measured (w : Workspace) : Prop where
  minRadius : w.minRadius.isNaN = false
  maxRadius : w.maxRadius.isNaN = false
  shoulderDistance : w.shoulderDistance.isNaN = false
  shoulderHeight : w.shoulderHeight.isFinite = true ∨
    (w.maxRadius - w.shoulderDistance).isFinite = false

variable {w : Workspace} {p : Pose}

theorem reaches_iff : w.reaches p = true ↔
    length (length p.x p.y - w.shoulderDistance).abs (p.z - w.shoulderHeight).abs ≤
        w.maxRadius - w.shoulderDistance ∧
      0 ≤ p.x ∧ w.minRadius < length p.x p.y := by
  simp only [reaches, Bool.and_eq_true, decide_eq_true_eq, and_assoc]

/-- What the check asks for. -/
theorem check_eq_ok_iff : w.check = .ok () ↔
    0 < w.edge ∧ ¬ w.minRadius < 0 ∧ ¬ w.maxRadius ≤ w.minRadius ∧
      ¬ w.maxRadius ≤ w.shoulderDistance ∧ w.wrist.low < w.wrist.high := by
  unfold check
  split
  · next hedge => exact ⟨nofun, fun h => absurd h.1 hedge⟩
  split
  · next hradius => exact ⟨nofun, fun h => absurd hradius (not_or.mpr ⟨h.2.1, h.2.2.1⟩)⟩
  split
  · next hshoulder => exact ⟨nofun, fun h => absurd hshoulder h.2.2.2.1⟩
  split
  · next hrange => exact ⟨nofun, fun h => absurd h.2.2.2.2 hrange⟩
  next hedge hradius hshoulder hrange =>
  obtain ⟨hmin, hmax⟩ := not_or.mp hradius
  exact ⟨fun _ => ⟨not_not.mp hedge, hmin, hmax, hshoulder, not_not.mp hrange⟩, fun _ => rfl⟩

/-- The ends of the wrist range are in order in a workspace that was accepted. -/
theorem low_le_high_of_check (h : w.check = .ok ()) : w.wrist.low ≤ w.wrist.high := by
  obtain ⟨-, -, -, -, hrange⟩ := check_eq_ok_iff.mp h
  obtain ⟨hlow, hhigh, hlt⟩ := Number.lt_iff.mp hrange
  exact Number.le_iff.mpr ⟨hlow, hhigh, hlt.le⟩

/-- Whatever the bearing, the range covers the angle for gripping. -/
theorem covers_gripAngle (h : w.wrist.low ≤ w.wrist.high) (spot : Spot) :
    w.wrist.covers (w.gripAngle spot) = true := by
  by_cases hnumber : (w.gripTarget spot).isNaN = false
  · exact WristRange.covers_iff.mpr (.inr (WristRange.contains_clamp h hnumber))
  · have hlow : ¬ w.gripTarget spot < w.wrist.low :=
      fun hlt => hnumber (Number.lt_iff.mp hlt).1
    have hhigh : ¬ w.wrist.high < w.gripTarget spot :=
      fun hlt => hnumber (Number.lt_iff.mp hlt).2.1
    have hsame : w.gripAngle spot = w.gripTarget spot := by
      rw [gripAngle, WristRange.clamp]
      exact (if_neg hlow).trans (if_neg hhigh)
    rw [hsame]
    exact WristRange.covers_iff.mpr (.inl (Bool.eq_true_of_not_eq_false hnumber))

/-- The arm reaches straight ahead at the height of its shoulder, up to the outer radius. -/
theorem reaches_ahead (hpos : 0 ≤ w.minRadius) (hradius : w.minRadius < w.maxRadius)
    (hshoulder : w.shoulderDistance < w.maxRadius) (hheight : w.shoulderHeight.isFinite = true) :
    w.reaches ⟨w.maxRadius, 0, w.shoulderHeight⟩ = true := by
  obtain ⟨hmin, hmax, hlt⟩ := lt_iff.mp hradius
  have hpos' : 0 < units w.maxRadius := (zero_le_units hpos).trans_lt hlt
  have hflat : (length w.maxRadius 0).toModel.unpack = w.maxRadius.toModel.unpack :=
    (unpack_length hmax rfl rfl).trans (abs_eq_of_pos hpos')
  obtain ⟨hlevel, hzero⟩ := sub_self_spec hheight
  have hup : units (w.shoulderHeight - w.shoulderHeight).abs = 0 := by
    rw [units, unpack_abs (isFinite_iff.mp hlevel).1, unitsOf_abs]
    exact abs_eq_zero.mpr hzero
  refine reaches_iff.mpr ⟨?_, le_iff.mpr ⟨rfl, hmax, hpos'.le⟩, lt_iff.mpr ⟨hmin, ?_, ?_⟩⟩
  · rw [sub_congr hflat]
    exact length_abs_le (zero_le_sub hshoulder) ((isFinite_abs _).trans hlevel) hup
  · exact (congrArg Float.Model.UnpackedFloat.isNaN hflat).trans hmax
  · exact hlt.trans_eq (congrArg unitsOf hflat).symm

/-- An arm that reaches infinitely far reaches an infinitely distant point, at whatever height its
shoulder is. -/
theorem reaches_infinity (hradius : w.minRadius < w.maxRadius)
    (hshoulder : w.shoulderDistance < w.maxRadius)
    (hfar : (w.maxRadius - w.shoulderDistance).isFinite = false) :
    w.reaches ⟨infinity, 0, 0⟩ = true := by
  have hbelow := lt_infinity hshoulder
  have houtward : (infinity - w.shoulderDistance).abs.toModel.unpack = .infinity .positive := by
    rw [unpack_abs (le_iff.mp (zero_le_sub hbelow)).2.1, unpack_infinity_sub hbelow]
    rfl
  rw [reaches_iff, length_infinity unpack_infinity, length_infinity houtward]
  exact ⟨infinity_le (zero_le_sub hshoulder) hfar, by decide +kernel, lt_infinity hradius⟩

/-- In a workspace with measures there is a point within reach. -/
theorem exists_reaches (h : w.check = .ok ()) (hw : w.Measured) : ∃ p, w.reaches p = true := by
  obtain ⟨-, hmin, hmax, hbase, -⟩ := check_eq_ok_iff.mp h
  have hradius : w.minRadius < w.maxRadius :=
    Number.lt_of_not_le hw.maxRadius hw.minRadius hmax
  have hshoulder : w.shoulderDistance < w.maxRadius :=
    Number.lt_of_not_le hw.maxRadius hw.shoulderDistance hbase
  have hpos : 0 ≤ w.minRadius := Number.le_of_not_lt hw.minRadius rfl hmin
  by_cases hheight : w.shoulderHeight.isFinite = true
  · exact ⟨_, reaches_ahead hpos hradius hshoulder hheight⟩
  · exact ⟨_, reaches_infinity hradius hshoulder (hw.shoulderHeight.resolve_left hheight)⟩

/-- A workspace in which a point is within reach has measures. -/
theorem measured_of_reaches (h : w.reaches p = true) : w.Measured := by
  obtain ⟨hlength, -, hdead⟩ := reaches_iff.mp h
  obtain ⟨hradius, hreach, hle⟩ := le_iff.mp hlength
  obtain ⟨hmax, hbase⟩ := isNaN_terms_sub hreach
  refine ⟨(lt_iff.mp hdead).1, hmax, hbase, ?_⟩
  by_contra hboth
  obtain ⟨hheight, hbounded⟩ := not_or.mp hboth
  rw [Bool.not_eq_false] at hbounded
  have hup : (p.z - w.shoulderHeight).abs.isFinite = false := by
    rw [isFinite_abs, Bool.eq_false_iff]
    exact fun hfinite => hheight (isFinite_sub hfinite).2
  rcases length_eq_or_eq (x := (length p.x p.y - w.shoulderDistance).abs) (.inr hup) with
    hlong | hnone
  · -- an infinite length is more than a finite one
    rw [hlong, units_infinity] at hle
    have hsmall := (isFinite_iff.mp hbounded).2
    omega
  · rw [hnone] at hradius
    exact absurd hradius (by decide +kernel)

/-- **What an accepted workspace is good for.**  A point is within reach exactly if the measures are
numbers and the shoulder is not at an infinite height, and the neutral pose is in the wrist range
exactly if it can be computed. -/
theorem check_sound_iff (h : w.check = .ok ()) :
    ((∃ p, w.reaches p = true) ↔ w.Measured) ∧
      (w.wrist.contains w.wristCenter = true ↔ w.wrist.Balanced) := by
  obtain ⟨-, -, -, -, hrange⟩ := check_eq_ok_iff.mp h
  refine ⟨⟨fun ⟨p, hp⟩ => measured_of_reaches hp, exists_reaches h⟩, ?_⟩
  exact WristRange.contains_center_iff hrange

/-- The standard workspace has something to reach and a neutral pose in its range. -/
theorem check_sound_standard : ({} : Workspace).check = .ok () ∧
    (∃ p, ({} : Workspace).reaches p = true) ∧
    ({} : Workspace).wrist.contains ({} : Workspace).wristCenter = true := by
  have hcheck : ({} : Workspace).check = .ok () := check_eq_ok_iff.mpr (by decide +kernel)
  have hmeasured : ({} : Workspace).Measured :=
    ⟨by decide +kernel, by decide +kernel, by decide +kernel, .inl (by decide +kernel)⟩
  have hbalanced : ({} : Workspace).wrist.Balanced := .inl (by decide +kernel)
  obtain ⟨hreach, hcenter⟩ := check_sound_iff hcheck
  exact ⟨hcheck, hreach.mpr hmeasured, hcenter.mpr hbalanced⟩

/-- An outer radius that is no number is accepted and leaves nothing to reach, and a range is
accepted whose middle is above both of its ends. -/
theorem exists_check_not_sound :
    (({ maxRadius := notANumber } : Workspace).check = .ok () ∧
      ¬ ∃ p, ({ maxRadius := notANumber } : Workspace).reaches p = true) ∧
    (({ wrist := ⟨1e308, 1.2e308⟩ } : Workspace).check = .ok () ∧
      ({ wrist := ⟨1e308, 1.2e308⟩ } : Workspace).wrist.high <
        ({ wrist := ⟨1e308, 1.2e308⟩ } : Workspace).wristCenter) := by
  refine ⟨⟨check_eq_ok_iff.mpr (by decide +kernel), fun ⟨p, hp⟩ => ?_⟩,
    check_eq_ok_iff.mpr (by decide +kernel), by decide +kernel⟩
  exact absurd (measured_of_reaches hp).maxRadius (by decide +kernel)

end Workspace

end BlockArm
