/-
# Half turns of the wrist

Where the angle asked for is out of range, the servo is sent half a turn farther or less far.  So it
turns by what was asked for, or by half a turn more or less against that, up to the rounding of the
sums and the slack of the range.

* `WristRange.Moderate`: a range in which rounding loses little of a degree;
* `WristRange.near_clamp`: an angle that is admitted is hardly moved;
* `WristRange.near_turn`: how far the servo turns.
-/
import BlockArm.Proofs.Number.Whole
import BlockArm.Proofs.Wrist.Range

namespace BlockArm

namespace WristRange

open Number (units unity Near)

/-- The range lies within `2 ^ 47` degrees to either side. -/
def Moderate (r : WristRange Float) : Prop :=
  (-140737488355328 : Float) ≤ r.low ∧ r.high ≤ (140737488355328 : Float)

instance (r : WristRange Float) : Decidable r.Moderate := inferInstanceAs (Decidable (_ ∧ _))

variable {r : WristRange Float} {wrist a : Float}

/-- The angles in a moderate range are finite, and none of them is large. -/
theorem Moderate.angle (hr : r.Moderate) (ha : r.contains a = true) :
    a.isFinite = true ∧ (units a).natAbs ≤ 2 ^ 47 * unity := by
  have hends : units (-140737488355328 : Float) = -(2 ^ 47 * unity : Nat) ∧
      units (140737488355328 : Float) = (2 ^ 47 * unity : Nat) := by decide +kernel
  have htop : 2 ^ 47 * unity < Number.top := by decide +kernel
  obtain ⟨hlow, hhigh⟩ := hr
  obtain ⟨hge, hle⟩ := contains_iff.mp ha
  obtain ⟨-, -, hlow'⟩ := Number.le_iff.mp hlow
  obtain ⟨-, -, hhigh'⟩ := Number.le_iff.mp hhigh
  obtain ⟨-, hnumber, hge'⟩ := Number.le_iff.mp hge
  obtain ⟨-, -, hle'⟩ := Number.le_iff.mp hle
  rw [hends.1] at hlow'
  rw [hends.2] at hhigh'
  have hbound : (units a).natAbs ≤ 2 ^ 47 * unity := by omega
  exact ⟨Number.isFinite_iff.mpr ⟨hnumber, by omega⟩, hbound⟩

/-- The slack is small. -/
theorem units_slack : (1e-9 : Float).isFinite = true ∧ 0 ≤ units (1e-9 : Float) ∧
    16 * units (1e-9 : Float) ≤ unity := by decide +kernel

/-- An angle that is admitted is moved into the range by little more than the slack. -/
theorem near_clamp (hr : r.Moderate) (hle : r.low ≤ r.high) (h : r.admits a = true) :
    Near 2 (r.clamp a) (units a) := by
  obtain ⟨hlow, hlow'⟩ := hr.angle (contains_low hle)
  obtain ⟨hhigh, hhigh'⟩ := hr.angle (contains_high hle)
  obtain ⟨hslack, hpos, hsmall⟩ := units_slack
  have hunity := Number.unity_pos
  have hbelow := ((Number.near_self hlow).sub (Number.near_self hslack) (by omega)).error
  have habove := ((Number.near_self hhigh).add (Number.near_self hslack) (by omega)).error
  obtain ⟨hge, hle'⟩ := admits_iff.mp h
  obtain ⟨-, hnumber, hge⟩ := Number.le_iff.mp hge
  obtain ⟨-, -, hle'⟩ := Number.le_iff.mp hle'
  obtain ⟨hcontained, -⟩ := hr.angle (contains_clamp hle hnumber)
  refine ⟨hcontained, ?_⟩
  unfold clamp
  split
  · next hlt =>
    have hlt' := (Number.lt_iff.mp hlt).2.2
    omega
  · split
    · next hgt =>
      have hgt' := (Number.lt_iff.mp hgt).2.2
      omega
    · rw [Int.sub_self]
      exact Nat.zero_le _

/-- What lies between angles that are admitted is admitted. -/
theorem admits_of_le_of_le {b c : Float} (ha : r.admits a = true) (hb : r.admits b = true)
    (hac : a ≤ c) (hcb : c ≤ b) : r.admits c = true := by
  obtain ⟨hlow, -⟩ := admits_iff.mp ha
  obtain ⟨-, hhigh⟩ := admits_iff.mp hb
  obtain ⟨hnumber, -, hlow⟩ := Number.le_iff.mp hlow
  obtain ⟨-, hnumber', hhigh⟩ := Number.le_iff.mp hhigh
  obtain ⟨-, hc, hac⟩ := Number.le_iff.mp hac
  obtain ⟨-, -, hcb⟩ := Number.le_iff.mp hcb
  exact admits_iff.mpr
    ⟨Number.le_iff.mpr ⟨hnumber, hc, by omega⟩, Number.le_iff.mpr ⟨hc, hnumber', by omega⟩⟩

/-! ## Turns of the servo -/

/-- A turn tries the angle asked for and those half a turn away from it. -/
theorem turn_eq (r : WristRange Float) (wrist degrees : Float) : r.turn wrist degrees =
    r.settle (wrist + degrees) [wrist + degrees - 180, wrist + degrees + 180] := rfl

theorem units_halfTurn : (180 : Float).isFinite = true ∧ units (180 : Float) = 180 * unity := by
  decide +kernel

section

variable (hr : r.Moderate) (hwrist : r.contains wrist = true)

include hr hwrist

/-- The angle asked for is nearly the exact sum. -/
theorem near_target (degrees : Int32) : Near 1 (wrist + Number.ofInt32 degrees)
    (units wrist + degrees.toInt * unity) := by
  obtain ⟨hfinite, hbound⟩ := hr.angle hwrist
  have hlarge := Number.natAbs_units_ofInt32 degrees
  have hunity := Number.unity_pos
  rw [← Number.units_ofInt32]
  exact (Number.near_self hfinite).add (Number.near_self (Number.isFinite_ofInt32 degrees))
    (by omega)

/-- So are the angles half a turn away from it. -/
theorem near_halfTurns (degrees : Int32) :
    Near 2 (wrist + Number.ofInt32 degrees - 180)
        (units wrist + (degrees.toInt + 180 * -1) * unity) ∧
      Near 2 (wrist + Number.ofInt32 degrees + 180)
        (units wrist + (degrees.toInt + 180 * 1) * unity) := by
  have htarget := near_target hr hwrist degrees
  obtain ⟨-, hbound⟩ := hr.angle hwrist
  obtain ⟨hhalf, hhalf'⟩ := units_halfTurn
  have hunity := Number.unity_pos
  have hlarge := Number.natAbs_units_ofInt32 degrees
  rw [Number.units_ofInt32] at hlarge
  have herror := htarget.error
  have hless := htarget.sub (Number.near_self hhalf) (by omega)
  have hmore := htarget.add (Number.near_self hhalf) (by omega)
  rw [hhalf'] at hless hmore
  constructor
  · convert hless using 1
    ring
  · convert hmore using 1
    ring

/-- The servo turns nearly as far as the angle that was met lies from the wrist. -/
theorem near_turned {c : Float} {n : Int} (hadmits : r.admits c = true)
    (hnear : Near 2 c (units wrist + n)) : Near 5 (r.clamp c - wrist) n := by
  have hle := low_le_high hwrist
  obtain ⟨hfinite, hbound⟩ := hr.angle hwrist
  obtain ⟨-, hbound'⟩ := hr.angle (contains_clamp hle (isNaN_of_admits hadmits))
  have hunity := Number.unity_pos
  have hclamp := near_clamp hr hle hadmits
  have hmoved : Near 4 (r.clamp c) (units wrist + n) := by
    have herror := hclamp.error
    have herror' := hnear.error
    exact ⟨hclamp.finite, by omega⟩
  have hturned := hmoved.sub (Number.near_self hfinite) (by omega)
  rwa [add_sub_cancel_left] at hturned

/-- The angle half a turn less is not tried unless the wrist was to turn upwards. -/
theorem pos_of_admits_less {degrees : Int32}
    (hout : ¬ r.admits (wrist + Number.ofInt32 degrees) = true)
    (hin : r.admits (wrist + Number.ofInt32 degrees - 180) = true) : 0 < degrees.toInt := by
  by_contra hdegrees
  have hnumber := (Number.isFinite_iff.mp (near_target hr hwrist degrees).finite).1
  have hless := (near_halfTurns hr hwrist degrees).1
  refine hout (admits_of_le_of_le hin (admits_of_contains hwrist) ?_ ?_)
  · exact Number.sub_le (by decide) (Number.isFinite_iff.mp hless.finite).1
  · exact Number.add_le (Number.ofInt32_le_zero (by omega)) hnumber

/-- And the angle half a turn more is not tried unless it was to turn downwards. -/
theorem neg_of_admits_more {degrees : Int32}
    (hout : ¬ r.admits (wrist + Number.ofInt32 degrees) = true)
    (hin : r.admits (wrist + Number.ofInt32 degrees + 180) = true) : degrees.toInt < 0 := by
  by_contra hdegrees
  have hnumber := (Number.isFinite_iff.mp (near_target hr hwrist degrees).finite).1
  have hmore := (near_halfTurns hr hwrist degrees).2
  refine hout (admits_of_le_of_le (admits_of_contains hwrist) hin ?_ ?_)
  · exact Number.le_add (Number.zero_le_ofInt32 (by omega)) hnumber
  · exact Number.le_add (by decide) (Number.isFinite_iff.mp hmore.finite).1

/-- The servo turns by the degrees asked for, or by half a turn less if they were positive, or by
half a turn more if they were negative. -/
theorem near_turn {degrees : Int32} (h : r.turn wrist (Number.ofInt32 degrees) = .exact a) :
    ∃ k : Int, (k = 0 ∨ k = -1 ∧ 0 < degrees.toInt ∨ k = 1 ∧ degrees.toInt < 0) ∧
      Near 5 (a - wrist) ((degrees.toInt + 180 * k) * unity) := by
  have htarget := near_target hr hwrist degrees
  obtain ⟨hless, hmore⟩ := near_halfTurns hr hwrist degrees
  rw [turn_eq] at h
  obtain ⟨c, hfind, rfl⟩ := find?_of_settle h
  -- the three angles are tried one after the other
  rcases List.find?_cons_eq_some.mp hfind with ⟨hin, rfl⟩ | ⟨hout, hfind⟩
  · refine ⟨0, .inl rfl, near_turned hr hwrist hin ?_⟩
    rw [mul_zero, add_zero]
    exact htarget.mono (by decide)
  have hout' : ¬ r.admits (wrist + Number.ofInt32 degrees) = true := by simpa using hout
  rcases List.find?_cons_eq_some.mp hfind with ⟨hin, rfl⟩ | ⟨-, hfind⟩
  · exact ⟨-1, .inr (.inl ⟨rfl, pos_of_admits_less hr hwrist hout' hin⟩),
      near_turned hr hwrist hin hless⟩
  rcases List.find?_cons_eq_some.mp hfind with ⟨hin, rfl⟩ | ⟨-, hfind⟩
  · exact ⟨1, .inr (.inr ⟨rfl, neg_of_admits_more hr hwrist hout' hin⟩),
      near_turned hr hwrist hin hmore⟩
  · exact absurd hfind (by simp)

end

end WristRange

end BlockArm
