/-
# Turns of the wrist servo

A held block turns along with the wrist servo, by the nearest number of quarter turns.  These are
counted in degrees, as a number of 32 bits, which does not hold the turns of a servo that can go very
far: such a turn has no rounded one.  The wrist of a move never misses its angle by that much, if it is
in its range before.

* `IsInt32`: the whole numbers of 32 bits;
* `ServoTurn`: a turn of the servo, its quarter turns in degrees, and whether these fit;
* `ServoTurn.snapToQuarter?_eq_some_iff`, `ServoTurn.snapToQuarter?_eq_none_iff`: turns that fit are
  rounded, and others are not;
* `ServoTurn.natAbs_degrees_lt`: rounded turns are not much longer than turns;
* `Workspace.exists_drift_of_follow`: the drift of a move from within the range always fits;
* `Workspace.drift?_follow_center_eq_none_iff`: that from the middle may not, if it is not in the range.
-/
import BlockArm.Run.Motion
import BlockArm.Proofs.Arm.Workspace
import BlockArm.Proofs.Wrist.Drift

namespace BlockArm

open Number (units unity Below)

/-! ## Whole numbers of 32 bits -/

/-- The whole numbers of 32 bits. -/
def IsInt32 (n : Int) : Prop := -2147483648 ≤ n ∧ n ≤ 2147483647

instance (n : Int) : Decidable (IsInt32 n) := inferInstanceAs (Decidable (_ ∧ _))

theorem isInt32_toInt (n : Int32) : IsInt32 n.toInt := by
  have hlow := n.le_toInt
  have hhigh := n.toInt_lt
  exact ⟨by omega, by omega⟩

/-- A number of 32 bits is taken as it is. -/
theorem int32?_eq_some_iff {n : Int} {m : Int32} : Text.int32? n = some m ↔ m.toInt = n := by
  refine ⟨fun h => ?_, fun h => h ▸ Text.int32?_toInt m⟩
  unfold Text.int32? at h
  split at h
  · next hfits =>
    obtain rfl := Option.some.inj h
    exact Int32.toInt_ofInt_of_le (by omega) (by omega)
  · exact absurd h (by simp)

theorem exists_int32 {n : Int} (h : IsInt32 n) : ∃ m, Text.int32? n = some m ∧ m.toInt = n :=
  ⟨Int32.ofInt n, if_pos h, Int32.toInt_ofInt_of_le h.1 (Int.lt_add_one_of_le h.2)⟩

/-- And no other number is taken. -/
theorem int32?_eq_none_iff {n : Int} : Text.int32? n = none ↔ ¬ IsInt32 n := by
  unfold Text.int32?
  exact ite_eq_right_iff.trans ⟨fun h hfits => absurd (h hfits) (by simp), fun h hfits => (h hfits).elim⟩

/-! ## Rounded turns -/

/-- The angles of the wrist servo before and after it turns. -/
structure ServoTurn where
  before : Float
  after : Float

namespace ServoTurn

variable {turn : ServoTurn}

/-- How many quarter turns it comes to. -/
def quarters (turn : ServoTurn) : Int32 :=
  Number.nearestInt32 ((turn.after - turn.before) / 90)

/-- The quarter turns in degrees, whatever their size. -/
def degrees (turn : ServoTurn) : Int := turn.quarters.toInt * 90

/-- The quarter turns in degrees are a number of 32 bits. -/
def Fits (turn : ServoTurn) : Prop := IsInt32 turn.degrees

instance (turn : ServoTurn) : Decidable turn.Fits := inferInstanceAs (Decidable (IsInt32 _))

/-- A turn that fits is rounded to its quarter turns. -/
theorem snapToQuarter?_eq_some_iff (turn : ServoTurn) {m : Int32} :
    snapToQuarter? (turn.after - turn.before) = some m ↔ m.toInt = turn.degrees :=
  int32?_eq_some_iff

/-- Other turns are not rounded. -/
theorem snapToQuarter?_eq_none_iff (turn : ServoTurn) :
    snapToQuarter? (turn.after - turn.before) = none ↔ ¬ turn.Fits := int32?_eq_none_iff

/-- So a turn that is rounded fits. -/
theorem fits_of_toInt {m : Int32} (h : m.toInt = turn.degrees) : turn.Fits :=
  show IsInt32 turn.degrees from h ▸ isInt32_toInt m

/-- What is no number is rounded to nothing. -/
theorem quarters_of_isNaN (h : (turn.after - turn.before).isNaN = true) : turn.quarters = 0 := by
  have hread : ((turn.after - turn.before) / 90).toModel.unpack = .notANumber := by
    rw [Number.unpack_div, Number.eq_notANumber (ne_false_of_eq_true h)]
    rfl
  rw [quarters, Number.nearestInt32, Number.read, hread]

/-- A turn that is not too long is rounded to the nearest quarter turns. -/
theorem degrees_bounds (hfinite : (turn.after - turn.before).isFinite = true)
    (hsmall : (units (turn.after - turn.before)).natAbs ≤ 2 ^ 37 * unity) :
    2 * turn.degrees.natAbs * unity ≤ (2 * (units (turn.after - turn.before)).natAbs) + 90 * unity ∧
      2 * (units (turn.after - turn.before)).natAbs < (2 * turn.degrees.natAbs + 90) * unity := by
  have hpos : 0 < 90 * unity := Nat.mul_pos (by decide) Number.unity_pos
  have hquarters := Number.natAbs_wholeQuotient (units (turn.after - turn.before)) hpos
  rw [← Number.toInt_nearestInt32_div hfinite hsmall] at hquarters
  obtain ⟨hle, hlt⟩ := (Number.nearest_eq_iff hpos).mp hquarters.symm
  rw [degrees, quarters, Int.natAbs_mul]
  constructor
  · convert hle using 1
    ring
  · convert hlt using 1
    ring

/-- Rounding to quarter turns adds half of one at most. -/
theorem natAbs_degrees_lt (turn : ServoTurn) {k : Nat} (hk : k ≤ 2 ^ 37)
    (h : Below k (turn.after - turn.before)) : 2 * turn.degrees.natAbs < k + 90 := by
  by_cases hnumber : (turn.after - turn.before).isNaN = false
  · have hbelow := h hnumber
    have hlarge : k * unity ≤ 2 ^ 37 * unity := Nat.mul_le_mul_right _ hk
    have hbounds := degrees_bounds (Number.isFinite_of_natAbs_le hnumber (by omega)) (by omega)
    refine Nat.lt_of_mul_lt_mul_right (a := unity) ?_
    rw [Nat.add_mul]
    omega
  · rw [degrees, quarters_of_isNaN (Bool.eq_true_of_not_eq_false hnumber)]
    show 2 * ((0 : Int) * 90).natAbs < _
    omega

/-- Turns that are a little longer than 32 bits allow still fit when they are rounded. -/
theorem fits_of_below (h : Below 4294967310 (turn.after - turn.before)) : turn.Fits := by
  have hlt := natAbs_degrees_lt turn (by decide) h
  have hdvd : 90 ∣ turn.degrees := Dvd.intro_left _ rfl
  exact ⟨by omega, by omega⟩

/-- Longer ones do not. -/
theorem not_fits_of_le (hfinite : (turn.after - turn.before).isFinite = true)
    (hsmall : (units (turn.after - turn.before)).natAbs ≤ 2 ^ 37 * unity)
    (hlong : 4294967310 * unity ≤ 2 * (units (turn.after - turn.before)).natAbs) : ¬ turn.Fits := by
  rintro ⟨hlow, hhigh⟩
  have hlt : 4294967310 < 2 * turn.degrees.natAbs + 90 :=
    Nat.lt_of_mul_lt_mul_right (hlong.trans_lt (degrees_bounds hfinite hsmall).2)
  have hdvd : 90 ∣ turn.degrees := Dvd.intro_left _ rfl
  omega

/-- Nor do those without an end. -/
theorem not_fits_of_infinite (hnumber : (turn.after - turn.before).isNaN = false)
    (hinfinite : (turn.after - turn.before).isFinite = false) : ¬ turn.Fits := by
  obtain ⟨s, hs⟩ :=
    Number.exists_infinity (u := (turn.after - turn.before).toModel.unpack) hnumber hinfinite
  have hread : ((turn.after - turn.before) / 90).toModel.unpack = .infinity s := by
    rw [Number.unpack_div, hs]
    cases s <;> rfl
  rw [Fits, degrees, quarters, Number.nearestInt32, Number.read, hread]
  cases s <;> decide

end ServoTurn

/-! ## Sums -/

/-- A sum of turns is taken if 32 bits hold it. -/
theorem addTurns?_eq_some_iff {m n sum : Int32} :
    addTurns? m n = some sum ↔ sum.toInt = m.toInt + n.toInt := int32?_eq_some_iff

theorem addTurns?_eq_none_iff {m n : Int32} :
    addTurns? m n = none ↔ ¬ IsInt32 (m.toInt + n.toInt) := int32?_eq_none_iff

/-! ## Moves -/

/-- Whatever the servo range, a wrist that it covers never misses the angle of a move by much, and so
its drift fits. -/
theorem Workspace.exists_drift_of_follow {w : Workspace} {wrist : Float}
    (h : w.wrist.covers wrist = true) (old new : Spot) :
    ∃ m, (w.follow wrist old new).drift? = some m ∧ m.toInt.natAbs ≤ 587 := by
  cases hfollow : w.follow wrist old new with
  | exact a => exact ⟨0, rfl, by decide⟩
  | clamped requested applied =>
    have hbelow := WristRange.below_follow (WristRange.covers_iff.mp h)
      (below_bearingChange _ _) hfollow
    have hfits : (ServoTurn.mk requested applied).Fits :=
      ServoTurn.fits_of_below (hbelow.mono (by decide))
    have hlt := ServoTurn.natAbs_degrees_lt ⟨requested, applied⟩ (by decide) hbelow
    rw [WristSetting.drift?]
    cases hdrift : snapToQuarter? (applied - requested) with
    | none => exact absurd hfits ((ServoTurn.snapToQuarter?_eq_none_iff _).mp hdrift)
    | some m =>
      have hm := (ServoTurn.snapToQuarter?_eq_some_iff ⟨requested, applied⟩).mp hdrift
      exact ⟨m, rfl, by omega⟩

/-- From the middle of the range a move drifts too far for 32 bits just if the middle, as it is computed
from the ends, lies outside of the range, and the bearing changes by some number. -/
theorem Workspace.drift?_follow_center_eq_none_iff {w : Workspace} (h : w.wrist.low < w.wrist.high)
    (old new : Spot) : (w.follow w.wristCenter old new).drift? = none ↔
      w.wrist.covers w.wristCenter = false ∧
        (bearingChange old.bearing new.bearing).isNaN = false := by
  cases hcovers : w.wrist.covers w.wristCenter with
  | true =>
    obtain ⟨m, hm, -⟩ := exists_drift_of_follow hcovers old new
    exact iff_of_false (by rw [hm]; simp) (by simp)
  | false =>
    obtain ⟨hlow, hhigh, hinfinite⟩ := WristRange.infinite_center_of_not_covers h hcovers
    have hasked : (w.wristCenter + bearingChange old.bearing new.bearing).isFinite = false :=
      Bool.eq_false_iff.mpr fun hfinite =>
        Bool.false_ne_true (hinfinite.symm.trans (Number.isFinite_add hfinite).1)
    obtain ⟨applied, happlied, hfollow⟩ :=
      WristRange.exists_clamped_of_not_finite hlow hhigh hasked
    rw [follow, hfollow, eq_self, true_and]
    refine (ServoTurn.snapToQuarter?_eq_none_iff ⟨_, applied⟩).trans
      ⟨fun hover => ?_, fun hdelta => ?_⟩
    · -- what is no number is rounded to nothing, which fits
      by_contra hnan
      exact hover (ServoTurn.fits_of_below fun hnumber =>
        absurd (Number.isNaN_terms_add (Number.isNaN_terms_sub hnumber).2).2 hnan)
    · have hsmall := below_bearingChange old.bearing new.bearing hdelta
      have hfinite := Number.isFinite_of_natAbs_le hdelta (by omega)
      have hnumber := Number.isNaN_add (Bool.or_eq_false_iff.mp hcovers).1 hfinite
      refine ServoTurn.not_fits_of_infinite (Number.isNaN_finite_sub happlied hnumber) ?_
      exact Bool.eq_false_iff.mpr fun hdifference =>
        Bool.false_ne_true (hasked.symm.trans (Number.isFinite_sub hdifference).2)

/-- A workspace in which the wrist can turn farther than 32 bits count. -/
def Station.spacious : Station := { workspace := { wrist := ⟨0, 100000000000⟩ }, settings := {} }

end BlockArm
