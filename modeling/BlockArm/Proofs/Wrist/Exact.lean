/-
# The wrist in exact arithmetic

The rules for the wrist are the same for doubles and for exact numbers, which are read here as those
of any ordered field.  Equivalent angles are those that are congruent modulo half a turn.  Without
rounding, an explicit turn by half a turn at most is never clamped in vain: if it starts in the range,
then the angles that it tries leave no room in the range for an equivalent one that it does not try.

* `Degrees.exact`: angles without rounding;
* `Degrees.Agree`: equivalent angles, up to some slack;
* `WristRange.abs_clamp_sub_le`, `WristRange.agree_of_settle`: an angle that is met agrees with those
  that were tried;
* `WristRange.not_within_of_gap`, `WristRange.not_within_of_turn`: where no equivalent angle is in the
  range;
* `WristRange.turnExact_complete`: a turn is met where an equivalent angle is in the range.
-/
import BlockArm.Proofs.Wrist.Range
import Mathlib.Algebra.Group.ModEq

namespace BlockArm

variable {α : Type} [Field α] [LinearOrder α]

/-! ## Angles without rounding -/

namespace Degrees

variable (α) in
/-- Angles without rounding.  This is no instance, so that the numbers keep their own arithmetic. -/
@[reducible] def exact [FloorRing α] : Degrees α where
  decidableLE := inferInstance
  decidableLT := inferInstance
  whole := Int.cast
  slack := 1e-9
  distance? a b := some |a - b|
  modHalfTurn a := a - 180 * ⌊a / 180⌋

/-- Half a turn, as the rules write it. -/
theorem whole_halfTurn [FloorRing α] : @whole α (exact α) 180 = 180 := Int.cast_ofNat 180

theorem slack_nonneg [IsStrictOrderedRing α] : (0 : α) ≤ 1e-9 := by norm_num

/-! ## Equivalent angles -/

/-- The angles are congruent modulo half a turn, up to some slack. -/
def Agree (slack a b : α) : Prop := ∃ c, c ≡ b [PMOD 180] ∧ |a - c| ≤ slack

variable {s t a b c d : α}

omit [LinearOrder α] in
/-- The angle half a turn on is equivalent. -/
theorem add_halfTurn_modEq (a : α) : a + 180 ≡ a [PMOD 180] :=
  AddCommGroup.add_modEq_left.mpr AddCommGroup.self_modEq_zero

omit [LinearOrder α] in
/-- The angle half a turn back is equivalent. -/
theorem sub_halfTurn_modEq (a : α) : a - 180 ≡ a [PMOD 180] :=
  AddCommGroup.sub_modEq_iff_modEq_add.mpr (add_halfTurn_modEq a).symm

theorem Agree.congr (hab : Agree s a b) (h : b ≡ c [PMOD 180]) : Agree s a c := by
  obtain ⟨x, hx, hax⟩ := hab
  exact ⟨x, hx.trans h, hax⟩

variable [IsStrictOrderedRing α]

theorem Agree.refl (a : α) : Agree 0 a a := ⟨a, AddCommGroup.modEq_rfl, by rw [sub_self, abs_zero]⟩

theorem Agree.trans (hab : Agree s a b) (hbc : Agree t b c) : Agree (s + t) a c := by
  obtain ⟨x, hx, hax⟩ := hab
  obtain ⟨y, hy, hby⟩ := hbc
  refine ⟨y + (x - b), ?_, ?_⟩
  · have hturns : x - b ≡ 0 [PMOD 180] := AddCommGroup.sub_modEq_zero.mpr hx
    have hsum := hy.add hturns
    rwa [add_zero] at hsum
  · calc |a - (y + (x - b))| = |(a - x) + (b - y)| := by congr 1; ring
      _ ≤ |a - x| + |b - y| := abs_add_le _ _
      _ ≤ s + t := add_le_add hax hby

theorem Agree.sub (hab : Agree s a b) (hcd : Agree t c d) : Agree (s + t) (a - c) (b - d) := by
  obtain ⟨x, hx, hax⟩ := hab
  obtain ⟨y, hy, hcy⟩ := hcd
  refine ⟨x - y, hx.sub hy, ?_⟩
  calc |a - c - (x - y)| = |(a - x) - (c - y)| := by congr 1; ring
    _ ≤ |a - x| + |c - y| := abs_sub _ _
    _ ≤ s + t := add_le_add hax hcy

/-- What agrees still does so relative to something else. -/
theorem Agree.sub_right (h : Agree s a b) (c : α) : Agree s (a - c) (b - c) := by
  have hsub := h.sub (Agree.refl c)
  rwa [add_zero] at hsub

/-- No equivalent angle lies between two that are half a turn apart. -/
theorem le_or_le_of_modEq (h : b ≡ a [PMOD 180]) : b ≤ a ∨ a + 180 ≤ b := by
  obtain ⟨k, hk⟩ := AddCommGroup.modEq_iff_zsmul'.mp h
  rw [zsmul_eq_mul] at hk
  rcases le_or_gt 0 k with hge | hlt
  · have hcast : (0 : α) ≤ k := by exact_mod_cast hge
    exact .inl (by linarith)
  · have hcast : (k : α) ≤ -1 := by exact_mod_cast Int.le_sub_one_of_lt hlt
    exact .inr (by linarith)

end Degrees

namespace WristRange

open Degrees (exact Agree)

variable {r : WristRange α} {slack a b : α}

/-! ## The range -/

section

variable [FloorRing α]

theorem admits_exact_iff : @admits α (exact α) r a = true ↔ r.Within 1e-9 a := by
  simp only [admits, Bool.and_eq_true, decide_eq_true_eq]
  exact Iff.rfl

/-- An angle is moved into the range. -/
theorem clamp_exact_mem (h : r.low ≤ r.high) (a : α) :
    @clamp α (exact α) r a ∈ Set.Icc r.low r.high := by
  unfold clamp
  split
  · exact Set.left_mem_Icc.mpr h
  · next hge =>
    split
    · exact Set.right_mem_Icc.mpr h
    · next hle => exact ⟨not_lt.mp hge, not_lt.mp hle⟩

end

variable [IsStrictOrderedRing α]

theorem within_of_mem (hslack : 0 ≤ slack) (h : a ∈ Set.Icc r.low r.high) : r.Within slack a :=
  ⟨(sub_le_self _ hslack).trans h.1, h.2.trans (le_add_of_nonneg_right hslack)⟩

/-- An angle that is in the range up to the slack is moved by the slack at most. -/
theorem abs_clamp_sub_le [FloorRing α] (hslack : 0 ≤ slack) (h : r.Within slack a) :
    |@clamp α (exact α) r a - a| ≤ slack := by
  obtain ⟨hge, hle⟩ := h
  unfold clamp
  split
  · next hlt =>
    rw [abs_of_nonneg (sub_nonneg.mpr hlt.le)]
    linarith
  · split
    · next hgt =>
      rw [abs_of_nonpos (sub_nonpos.mpr hgt.le)]
      linarith
    · rwa [sub_self, abs_zero]

/-! ## Equivalent angles in the range -/

/-- There is no room in the range for an equivalent angle if two that are half a turn apart lie to
either side. -/
theorem not_within_of_gap (hbelow : a < r.low - slack) (habove : r.high + slack < a + 180)
    (h : b ≡ a [PMOD 180]) : ¬ r.Within slack b := by
  rintro ⟨hge, hle⟩
  rcases Degrees.le_or_le_of_modEq h with hb | hb
  · exact absurd (hge.trans hb) (not_le.mpr hbelow)
  · exact absurd (hb.trans hle) (not_le.mpr habove)

/-- A turn by half a turn at most, from within the range, tries all there is: if neither the angle that
it asks for nor one half a turn away is in the range, then no equivalent angle is. -/
theorem not_within_of_turn {current degrees : α} (hslack : 0 ≤ slack)
    (hcurrent : current ∈ Set.Icc r.low r.high) (hdegrees : |degrees| ≤ 180)
    (htarget : ¬ r.Within slack (current + degrees))
    (hback : ¬ r.Within slack (current + degrees - 180))
    (hon : ¬ r.Within slack (current + degrees + 180))
    (h : b ≡ current + degrees [PMOD 180]) : ¬ r.Within slack b := by
  obtain ⟨hlow, hhigh⟩ := hcurrent
  obtain ⟨hmin, hmax⟩ := abs_le.mp hdegrees
  rcases le_total 0 degrees with hpos | hneg
  · -- the target is not below the range, so it is above, and half a turn back is below
    have habove : r.high + slack < current + degrees :=
      not_le.mp fun hle => htarget ⟨by linarith, hle⟩
    have hbelow : current + degrees - 180 < r.low - slack :=
      not_le.mp fun hge => hback ⟨hge, by linarith⟩
    exact not_within_of_gap hbelow (by rwa [sub_add_cancel])
      (h.trans (Degrees.sub_halfTurn_modEq _).symm)
  · -- the target is not above the range, so it is below, and half a turn on is above
    have hbelow : current + degrees < r.low - slack :=
      not_le.mp fun hge => htarget ⟨hge, by linarith⟩
    have habove : r.high + slack < current + degrees + 180 :=
      not_le.mp fun hle => hon ⟨by linarith, hle⟩
    exact not_within_of_gap hbelow habove h

/-! ## Settings -/

deriving instance DecidableEq for WristSetting

variable [FloorRing α] {target current degrees : α} {others : List α}

/-- An angle that is met agrees with the one that was asked for. -/
theorem agree_of_settle (h : @settle α (exact α) r target others = .exact a)
    (hothers : ∀ c ∈ others, c ≡ target [PMOD 180]) : Agree 1e-9 a target := by
  obtain ⟨c, hfind, rfl⟩ := @find?_of_settle α (exact α) _ _ _ _ h
  refine ⟨c, ?_, abs_clamp_sub_le Degrees.slack_nonneg (admits_exact_iff.mp (List.find?_some hfind))⟩
  rcases List.mem_cons.mp (List.mem_of_find?_eq_some hfind) with rfl | hc
  · exact AddCommGroup.modEq_rfl
  · exact hothers c hc

/-- The setting after an explicit turn, without rounding. -/
def turnExact (r : WristRange α) (current degrees : α) : WristSetting α :=
  @turn α (exact α) r current degrees

omit [IsStrictOrderedRing α] in
theorem turnExact_eq : r.turnExact current degrees = @settle α (exact α) r (current + degrees)
    [current + degrees - 180, current + degrees + 180] := by
  rw [← Degrees.whole_halfTurn]
  rfl

/-- **Turns by half a turn at most**, from within the range: if an equivalent angle is in the range, then
one is met; what is met is in the range and equivalent up to the slack; and a turn is clamped only if
all equivalent angles are out of the range, by more than the slack. -/
theorem turnExact_complete (h : r.low < r.high) (hcurrent : current ∈ Set.Icc r.low r.high)
    (hdegrees : |degrees| ≤ 180) :
    ((∃ b ∈ Set.Icc r.low r.high, b ≡ current + degrees [PMOD 180]) →
      ∃ a, r.turnExact current degrees = .exact a) ∧
    (∀ a, r.turnExact current degrees = .exact a →
      a ∈ Set.Icc r.low r.high ∧ ∃ b, b ≡ current + degrees [PMOD 180] ∧ |a - b| ≤ 1e-9) ∧
    ∀ requested applied, r.turnExact current degrees = .clamped requested applied →
      ∀ b, b ≡ current + degrees [PMOD 180] → ¬ r.Within 1e-9 b := by
  have hclamped : ∀ requested applied, r.turnExact current degrees = .clamped requested applied →
      ∀ b, b ≡ current + degrees [PMOD 180] → ¬ r.Within 1e-9 b := by
    intro requested applied hs b hb
    rw [turnExact_eq] at hs
    obtain ⟨-, -, hnone⟩ := @eq_of_settle_clamped α (exact α) _ _ _ _ _ hs
    simp only [List.forall_mem_cons, admits_exact_iff] at hnone
    obtain ⟨htarget, hback, hon, -⟩ := hnone
    exact not_within_of_turn Degrees.slack_nonneg hcurrent hdegrees htarget hback hon hb
  refine ⟨?_, fun a ha => ?_, hclamped⟩
  · rintro ⟨b, hmem, hb⟩
    cases hs : r.turnExact current degrees with
    | exact a => exact ⟨a, rfl⟩
    | clamped requested applied =>
      exact absurd (within_of_mem Degrees.slack_nonneg hmem) (hclamped _ _ hs b hb)
  · rw [turnExact_eq] at ha
    refine ⟨?_, agree_of_settle ha fun c hc => ?_⟩
    · obtain ⟨c, -, rfl⟩ := @find?_of_settle α (exact α) _ _ _ _ ha
      exact clamp_exact_mem h.le c
    · rcases List.mem_pair.mp hc with rfl | rfl
      · exact Degrees.sub_halfTurn_modEq _
      · exact Degrees.add_halfTurn_modEq _

/-- A turn that is met half a turn back, and one that no equivalent angle meets. -/
theorem turnExact_sideways :
    let r : WristRange ℚ := ⟨12, 168⟩
    (r.low < r.high ∧ 150 ∈ Set.Icc r.low r.high) ∧
      (|(45 : ℚ)| ≤ 180 ∧ (∃ a, r.turnExact 150 45 = .exact a) ∧
        r.turnExact 150 45 = .exact 15 ∧ ∃ b : ℚ, b ≡ 150 + 45 [PMOD 180] ∧ |15 - b| ≤ 1e-9) ∧
      |(25 : ℚ)| ≤ 180 ∧ r.turnExact 150 25 = .clamped 175 168 ∧
        ∀ b, b ≡ 150 + 25 [PMOD 180] → ¬ r.Within 1e-9 b := by
  intro r
  have hends : r.low < r.high := by decide +kernel
  have hcurrent : (150 : ℚ) ∈ Set.Icc r.low r.high := ⟨by decide +kernel, by decide +kernel⟩
  have hmet : |(45 : ℚ)| ≤ 180 := by decide +kernel
  have hmissed : |(25 : ℚ)| ≤ 180 := by decide +kernel
  have hexact : r.turnExact 150 45 = .exact 15 := by decide +kernel
  have hclamped : r.turnExact 150 25 = .clamped 175 168 := by decide +kernel
  have hequivalent : (15 : ℚ) ≡ 150 + 45 [PMOD 180] :=
    AddCommGroup.modEq_iff_zsmul.mpr ⟨1, by norm_num⟩
  obtain ⟨hcomplete, hsound, -⟩ := turnExact_complete hends hcurrent hmet
  obtain ⟨-, -, hnone⟩ := turnExact_complete hends hcurrent hmissed
  exact ⟨⟨hends, hcurrent⟩,
    ⟨hmet, hcomplete ⟨15, ⟨by decide +kernel, by decide +kernel⟩, hequivalent⟩, hexact,
      (hsound 15 hexact).2⟩,
    hmissed, hclamped, hnone 175 168 hclamped⟩

end WristRange

end BlockArm
