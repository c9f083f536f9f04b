/-
# Distances of doubles

Rounding keeps the order of exact values, so that a difference is no larger when more is taken away.
Seen from a finite double, what lies farther on is therefore no closer, although distances are rounded
and may be infinite.

* `Rounds.le_of_lt`: rounding keeps the order;
* `eq_or_zero_of_units`: what a double stands for, up to the sign of a zero, decides which one it is;
* `sub_le_sub`: a difference is no larger when more is taken away;
* `abs_sub_le_of_le`, `abs_sub_le_of_ge`: what lies farther on is no closer.
-/
import BlockArm.Proofs.Number.Length

namespace BlockArm.Number

open Float.Model (UnpackedFloat Format)
open Float.Model.UnpackedFloat

variable {u v : UnpackedFloat} {c x y : Float}

/-! ## The order of rounded values -/

/-- Rounding keeps the order of exact values.  If it turned the order around, then each of the two
results would have to be nearer to its own value than the other one is. -/
theorem Rounds.le_of_lt {m n : Int} (hu : Rounds m 1 u) (hv : Rounds n 1 v) (h : m < n) :
    unitsOf (unpack .binary64 (pack .binary64 u)) ≤
      unitsOf (unpack .binary64 (pack .binary64 v)) := by
  have hfirst := hu.closest _ (onScale_unitsOf (isStored_unpack (pack .binary64 v)))
  have hsecond := hv.closest _ (onScale_unitsOf (isStored_unpack (pack .binary64 u)))
  rw [Nat.cast_one, mul_one, mul_one] at hfirst hsecond
  omega

/-- A sign can be told from a value that is not zero. -/
theorem eq_of_apply_eq {s t : Sign} {n : Nat} (hn : 0 < n)
    (h : s.apply (n : Int) = t.apply (n : Int)) : s = t := by
  cases s <;> cases t <;> simp only [apply_positive, apply_negative] at h
  case negative.negative | positive.positive => rfl
  all_goals omega

/-- A finite value is not at the end of the scale. -/
theorem unitsOf_finite_ne {s t : Sign} {m : Nat} {e : Int} {hm : 0 < m}
    (h : IsStored (.finite s m e hm)) :
    unitsOf (.finite s m e hm) ≠ unitsOf (.infinity t) := by
  intro heq
  have hlt := Stored.size_lt_top h
  have habs := congrArg Int.natAbs heq
  rw [unitsOf_infinity, unitsOf, natAbs_apply, natAbs_apply] at habs
  omega

/-- A double is known by what it stands for, up to the sign of a zero. -/
theorem eq_or_zero_of_units (hu : IsStored u) (hv : IsStored v) (hnu : u.isNaN = false)
    (hnv : v.isNaN = false) (h : unitsOf u = unitsOf v) : u = v ∨ unitsOf u = 0 := by
  rcases u with ⟨s⟩ | _ | ⟨s⟩ | ⟨s, m, e, hm⟩ <;> rcases v with ⟨t⟩ | _ | ⟨t⟩ | ⟨t, m', e', hm'⟩
  case notANumber.notANumber | notANumber.infinity | notANumber.zero | notANumber.finite =>
    exact absurd hnu.symm Bool.false_ne_true
  case infinity.notANumber | zero.notANumber | finite.notANumber =>
    exact absurd hnv.symm Bool.false_ne_true
  case zero.infinity | zero.zero | zero.finite => exact .inr rfl
  case infinity.zero | finite.zero => exact .inr h
  case infinity.infinity =>
    obtain rfl := eq_of_apply_eq top_pos h
    exact .inl rfl
  case infinity.finite => exact absurd h.symm (unitsOf_finite_ne hv)
  case finite.infinity => exact absurd h (unitsOf_finite_ne hu)
  case finite.finite =>
    rw [unitsOf, unitsOf] at h
    have hsize : size m e = size m' e' := by
      have habs := congrArg Int.natAbs h
      rwa [natAbs_apply, natAbs_apply] at habs
    have hcompare := Stored.compare_eq hu hv
    rw [hsize, compare_eq_iff_eq.mpr rfl, Ordering.then_eq_eq, compare_eq_iff_eq,
      compare_eq_iff_eq] at hcompare
    obtain ⟨rfl, rfl⟩ := hcompare
    obtain rfl := eq_of_apply_eq (size_pos hm _) h
    exact .inl rfl

/-! ## Differences -/

/-- Any number can be taken from a finite one. -/
theorem isNaN_finite_sub (hc : c.isFinite = true) (hx : x.isNaN = false) :
    (c - x).isNaN = false := by
  have hneg : x.toModel.unpack.neg.isNaN = false := (isNaN_neg _).trans hx
  have hnumber : (UnpackedFloat.add .binary64 c.toModel.unpack x.toModel.unpack.neg).isNaN =
      false :=
    isNaN_sum (isStored c) (isStored_neg (isStored x)) (isFinite_iff.mp hc).1 hneg
      fun s hs _ => by
        have hfinite : c.toModel.unpack.isFinite = true := hc
        rw [hs] at hfinite
        exact absurd hfinite Bool.false_ne_true
  exact (congrArg UnpackedFloat.isNaN (unpack_sub c x)).trans
    (sumOf_add (isStored c) (isStored_neg (isStored x)) hnumber).isNaN

/-- An infinity is at the end of the scale, and what is left of a finite double without it is the
opposite infinity. -/
theorem units_sub_of_infinite (hc : c.isFinite = true) (hx : x.isNaN = false)
    (hinf : ¬ x.isFinite = true) : (units x).natAbs = top ∧ units (c - x) = -units x := by
  obtain ⟨s, hs⟩ := exists_infinity (u := x.toModel.unpack) hx (Bool.eq_false_iff.mpr hinf)
  have hunits : units x = s.apply top := congrArg unitsOf hs
  have hfinite : c.toModel.unpack.isFinite = true := hc
  have hread : (c - x).toModel.unpack = .infinity (-s) := by
    rw [unpack_sub, hs]
    cases hu : c.toModel.unpack with
    | zero | finite => exact unpack_packedInfinity (-s)
    | notANumber | infinity =>
      rw [hu] at hfinite
      exact absurd hfinite Bool.false_ne_true
  refine ⟨by rw [hunits, natAbs_apply], ?_⟩
  rw [hunits, ← neg_apply]
  exact congrArg unitsOf hread

/-- Taking nothing away changes nothing. -/
theorem units_sub_of_zero (hc : c.isFinite = true) (hx : x.isFinite = true) (h : units x = 0) :
    units (c - x) = units c := by
  have hrounds := rounds_sub hc hx
  rw [h, Int.sub_zero] at hrounds
  rw [units, unpack_sub]
  exact hrounds.unitsOf_eq (onScale_unitsOf (isStored c))

/-- What stands for the same may be taken away for one another. -/
theorem units_sub_congr (hc : c.isFinite = true) (hx : x.isNaN = false) (hy : y.isNaN = false)
    (h : units x = units y) : units (c - x) = units (c - y) := by
  rcases eq_or_zero_of_units (isStored x) (isStored y) hx hy h with heq | hzero
  · rw [units, units, unpack_sub, unpack_sub, heq]
  · have htop := top_pos
    have hzero' : units x = 0 := hzero
    rw [units_sub_of_zero hc (isFinite_iff.mpr ⟨hx, by omega⟩) hzero',
      units_sub_of_zero hc (isFinite_iff.mpr ⟨hy, by omega⟩) (h ▸ hzero')]

/-- A difference is no larger when more is taken away. -/
theorem sub_le_sub (hc : c.isFinite = true) (h : x ≤ y) : c - y ≤ c - x := by
  obtain ⟨hx, hy, hle⟩ := le_iff.mp h
  refine le_iff.mpr ⟨isNaN_finite_sub hc hy, isNaN_finite_sub hc hx, ?_⟩
  rcases hle.eq_or_lt with heq | hlt
  · exact (units_sub_congr hc hx hy heq).ge
  have hbound := (isStored (c - x)).natAbs_units_le
  have hbound' := (isStored (c - y)).natAbs_units_le
  have hx' := (isStored x).natAbs_units_le
  have hy' := (isStored y).natAbs_units_le
  rw [← units] at hbound hbound' hx' hy'
  by_cases hfx : x.isFinite = true
  · by_cases hfy : y.isFinite = true
    · have hle' := (rounds_sub hc hfy).le_of_lt (rounds_sub hc hfx) (by omega)
      rwa [← unpack_sub, ← unpack_sub] at hle'
    · -- what is taken away is the upper infinity
      obtain ⟨htop, hless⟩ := units_sub_of_infinite hc hy hfy
      omega
  · -- what is taken away is the lower infinity
    obtain ⟨htop, hmore⟩ := units_sub_of_infinite hc hx hfx
    omega

/-! ## Distances -/

theorem le_trans {z : Float} (h : x ≤ y) (h' : y ≤ z) : x ≤ z := by
  obtain ⟨hx, -, hle⟩ := le_iff.mp h
  obtain ⟨-, hz, hle'⟩ := le_iff.mp h'
  exact le_iff.mpr ⟨hx, hz, hle.trans hle'⟩

theorem le_of_not_le (hx : x.isNaN = false) (hy : y.isNaN = false) (h : ¬ x ≤ y) : y ≤ x :=
  le_iff.mpr ⟨hy, hx, (lt_iff.mp (lt_of_not_le hx hy h)).2.2.le⟩

/-- From below, what lies farther on is no closer. -/
theorem abs_sub_le_of_le (hc : c.isFinite = true) (hcx : c ≤ x) (hxy : x ≤ y) :
    (c - x).abs ≤ (c - y).abs := by
  obtain ⟨-, -, hself⟩ := le_iff.mp (sub_le_sub hc hcx)
  obtain ⟨hy, hx, hle⟩ := le_iff.mp (sub_le_sub hc hxy)
  obtain ⟨hx', hunits⟩ := units_abs hx
  obtain ⟨hy', hunits'⟩ := units_abs hy
  rw [(sub_self_spec hc).2] at hself
  refine le_iff.mpr ⟨hx', hy', ?_⟩
  rw [hunits, hunits', abs_of_nonpos hself, abs_of_nonpos (hle.trans hself)]
  exact neg_le_neg hle

/-- Nor is it from above. -/
theorem abs_sub_le_of_ge (hc : c.isFinite = true) (hcx : x ≤ c) (hxy : y ≤ x) :
    (c - x).abs ≤ (c - y).abs := by
  obtain ⟨-, -, hself⟩ := le_iff.mp (sub_le_sub hc hcx)
  obtain ⟨hx, hy, hle⟩ := le_iff.mp (sub_le_sub hc hxy)
  obtain ⟨hx', hunits⟩ := units_abs hx
  obtain ⟨hy', hunits'⟩ := units_abs hy
  rw [(sub_self_spec hc).2] at hself
  refine le_iff.mpr ⟨hx', hy', ?_⟩
  rwa [hunits, hunits', abs_of_nonneg hself, abs_of_nonneg (hself.trans hle)]

end BlockArm.Number
