/-
# Infinities, differences and lengths

An infinity is lost in no sum, difference or length: these are infinite or no numbers, if one of
their terms is.  A vector along an axis is as long as its component, to the last bit.

* `isFinite_add`, `isFinite_sub`: only finite doubles have a finite sum or difference;
* `zero_le_sub`: the difference with a smaller number is a number and not negative;
* `isNaN_terms_sub`: only numbers have a difference that is one;
* `length_eq_or_eq`: the length of a vector that is not finite;
* `unpack_length`: the length of a vector along an axis.
-/
import BlockArm.Number.Plane
import BlockArm.Proofs.Number.Whole

namespace BlockArm.Number

open Float.Model (UnpackedFloat Format)
open Float.Model.UnpackedFloat

variable {a b x y : Float}

/-! ## Infinities -/

theorem unpack_infinity : infinity.toModel.unpack = .infinity .positive := rfl

theorem units_infinity : units infinity = top := rfl

theorem eq_notANumber {u : UnpackedFloat} (h : ¬ u.isNaN = false) : u = .notANumber := by
  cases u with
  | notANumber => rfl
  | zero | infinity | finite => exact absurd rfl h

/-- A number that is not finite is an infinity. -/
theorem exists_infinity {u : UnpackedFloat} (hnumber : u.isNaN = false)
    (hfinite : u.isFinite = false) : ∃ s, u = .infinity s := by
  cases u with
  | infinity s => exact ⟨s, rfl⟩
  | notANumber => exact absurd hnumber.symm Bool.false_ne_true
  | zero | finite => exact absurd hfinite.symm Bool.false_ne_true

/-- What is below something is below infinity. -/
theorem lt_infinity (h : a < b) : a < infinity := by
  obtain ⟨ha, -, hlt⟩ := lt_iff.mp h
  have hbound := (isStored b).natAbs_units_le
  refine lt_iff.mpr ⟨ha, rfl, hlt.trans_le ?_⟩
  rw [units_infinity, units]
  omega

/-- What is not negative and not finite is no less than infinity. -/
theorem infinity_le (h : 0 ≤ a) (hfinite : a.isFinite = false) : infinity ≤ a := by
  obtain ⟨-, hnumber, hpos⟩ := le_iff.mp h
  obtain ⟨s, hs⟩ := exists_infinity (u := a.toModel.unpack) hnumber hfinite
  have hunits : units a = s.apply top := congrArg unitsOf hs
  have hzero : units 0 = 0 := rfl
  have htop := top_pos
  refine le_iff.mpr ⟨rfl, hnumber, ?_⟩
  rw [units_infinity]
  cases s <;> simp only [apply_positive, apply_negative] at hunits <;> omega

/-- What is finite and no larger than nothing is a zero. -/
theorem exists_zero {u : UnpackedFloat} (hfinite : u.isFinite = true) (h : unitsOf u = 0) :
    ∃ s, u = .zero s := by
  rcases u with ⟨s⟩ | _ | ⟨s⟩ | ⟨s, m, e, hm⟩
  case infinity | notANumber => exact absurd hfinite Bool.false_ne_true
  case zero => exact ⟨s, rfl⟩
  case finite =>
    have hpos := size_pos hm e
    have habs := natAbs_apply s (size m e)
    rw [unitsOf] at h
    omega

/-- A finite double was packed as one. -/
theorem isFinite_of_unpack {w : UnpackedFloat}
    (h : (unpack .binary64 (pack .binary64 w)).isFinite = true) : w.isFinite = true := by
  cases w with
  | notANumber => exact absurd h Bool.false_ne_true
  | infinity s =>
    rw [show unpack _ (pack _ (.infinity s)) = .infinity s from unpack_packedInfinity s] at h
    exact absurd h Bool.false_ne_true
  | zero | finite => rfl

/-- The terms of a finite sum are finite. -/
theorem isFinite_terms {u v : UnpackedFloat}
    (h : (UnpackedFloat.add .binary64 u v).isFinite = true) :
    u.isFinite = true ∧ v.isFinite = true := by
  rcases u with ⟨s⟩ | _ | ⟨s⟩ | ⟨s, m, e, hm⟩ <;> rcases v with ⟨t⟩ | _ | ⟨t⟩ | ⟨t, m', e', hm'⟩
  case zero.zero | zero.finite | finite.zero | finite.finite => exact ⟨rfl, rfl⟩
  case infinity.infinity => cases s <;> cases t <;> exact absurd h Bool.false_ne_true
  all_goals exact absurd h Bool.false_ne_true

theorem isFinite_add (h : (a + b).isFinite = true) : a.isFinite = true ∧ b.isFinite = true :=
  isFinite_terms (isFinite_of_unpack h)

theorem isFinite_sub (h : (a - b).isFinite = true) : a.isFinite = true ∧ b.isFinite = true := by
  have hread := (congrArg UnpackedFloat.isFinite (unpack_sub a b)).symm.trans h
  obtain ⟨ha, hb⟩ := isFinite_terms (isFinite_of_unpack hread)
  refine ⟨ha, ?_⟩
  show b.toModel.unpack.isFinite = true
  revert hb
  cases b.toModel.unpack <;> exact id

/-! ## Differences -/

/-- Numbers that are not in one order are in the other. -/
theorem lt_of_not_le (ha : a.isNaN = false) (hb : b.isNaN = false) (h : ¬ a ≤ b) : b < a :=
  lt_iff.mpr ⟨hb, ha, not_le.mp fun hle => h (le_iff.mpr ⟨ha, hb, hle⟩)⟩

theorem le_of_not_lt (ha : a.isNaN = false) (hb : b.isNaN = false) (h : ¬ a < b) : b ≤ a :=
  le_iff.mpr ⟨hb, ha, not_lt.mp fun hlt => h (lt_iff.mpr ⟨ha, hb, hlt⟩)⟩

/-- A sum is a number unless one of its terms is none or the terms are opposite infinities. -/
theorem isNaN_sum {u v : UnpackedFloat} (hu : IsStored u) (hv : IsStored v)
    (hnu : u.isNaN = false) (hnv : v.isNaN = false)
    (hopposite : ∀ s, u = .infinity s → v ≠ .infinity (-s)) :
    (UnpackedFloat.add .binary64 u v).isNaN = false := by
  by_cases hfinite : u.isFinite = true ∧ v.isFinite = true
  · exact isNaN_of_unpack (rounds_add hu hv hfinite.1 hfinite.2).number
  rcases u with ⟨s⟩ | _ | ⟨s⟩ | ⟨s, m, e, hm⟩ <;> rcases v with ⟨t⟩ | _ | ⟨t⟩ | ⟨t, m', e', hm'⟩
  case zero.zero | zero.finite | finite.zero | finite.finite => exact absurd ⟨rfl, rfl⟩ hfinite
  case infinity.zero | infinity.finite | zero.infinity | finite.infinity => rfl
  case infinity.infinity =>
    cases s <;> cases t
    case negative.negative | positive.positive => rfl
    all_goals exact absurd rfl (hopposite _ rfl)
  all_goals first
    | exact absurd hnu.symm Bool.false_ne_true
    | exact absurd hnv.symm Bool.false_ne_true

theorem isNaN_neg (u : UnpackedFloat) : u.neg.isNaN = u.isNaN := by
  cases u <;> rfl

/-- The difference with a smaller number is a number and not negative. -/
theorem zero_le_sub (h : b < a) : 0 ≤ a - b := by
  obtain ⟨hb, ha, hlt⟩ := lt_iff.mp h
  have hstored := isStored_neg (isStored b)
  have hbound := (isStored a).natAbs_units_le
  have hbound' := hstored.natAbs_units_le
  have hlt' : 0 < unitsOf a.toModel.unpack + unitsOf b.toModel.unpack.neg := by
    rw [unitsOf_neg]
    exact Int.sub_pos_of_lt hlt
  have hnumber : (UnpackedFloat.add .binary64 a.toModel.unpack b.toModel.unpack.neg).isNaN =
      false := by
    refine isNaN_sum (isStored a) hstored ha ((isNaN_neg _).trans hb) fun s hs hs' => ?_
    rw [hs, hs', unitsOf_infinity, unitsOf_infinity, neg_apply, Int.add_right_neg] at hlt'
    exact absurd hlt' (lt_irrefl 0)
  have hsum := sumOf_add (isStored a) hstored hnumber
  refine le_iff.mpr ⟨rfl, (congrArg UnpackedFloat.isNaN (unpack_sub a b)).trans hsum.isNaN, ?_⟩
  rw [units, units, unpack_sub]
  cases hsum with
  | rounded hrounds =>
    exact hrounds.below 0 ⟨short_zero, Nat.zero_le top⟩ (by rw [zero_mul]; exact hlt'.le)
  | infinite s hs hterm =>
    have htop := top_pos
    rw [hs, show unpack _ (pack _ (.infinity s)) = .infinity s from unpack_packedInfinity s]
    cases s with
    | positive => exact Int.natCast_nonneg top
    | negative =>
      -- neither term lies below the lower infinity
      rcases hterm with hterm | hterm <;> rw [hterm, unitsOf_infinity, apply_negative] at hlt' <;>
        omega

/-- A term of a sum that is a number is one. -/
theorem isNaN_right {u v : UnpackedFloat} (h : (UnpackedFloat.add .binary64 u v).isNaN = false) :
    v.isNaN = false := by
  cases v with
  | notANumber => cases u <;> exact absurd h.symm Bool.false_ne_true
  | zero | infinity | finite => rfl

/-- The terms of a sum that is a number are numbers. -/
theorem isNaN_terms_add (h : (a + b).isNaN = false) : a.isNaN = false ∧ b.isNaN = false :=
  ⟨isNaN_left (isNaN_of_unpack h), isNaN_right (isNaN_of_unpack h)⟩

/-- The terms of a difference that is a number are numbers. -/
theorem isNaN_terms_sub (h : (a - b).isNaN = false) : a.isNaN = false ∧ b.isNaN = false := by
  have hsum := isNaN_of_unpack ((congrArg UnpackedFloat.isNaN (unpack_sub a b)).symm.trans h)
  exact ⟨isNaN_left hsum, (isNaN_neg _).symm.trans (isNaN_right hsum)⟩

/-- What lies below infinity may be taken from it. -/
theorem unpack_infinity_sub (h : b < infinity) :
    (infinity - b).toModel.unpack = .infinity .positive := by
  obtain ⟨hnumber, -, hlt⟩ := lt_iff.mp h
  have hb : b.toModel.unpack.isNaN = false := hnumber
  rw [units_infinity, units] at hlt
  rw [unpack_sub, unpack_infinity]
  rcases hu : b.toModel.unpack with ⟨s⟩ | _ | ⟨s⟩ | ⟨s, m, e, hm⟩ <;> rw [hu] at hb hlt
  case notANumber => exact absurd hb.symm Bool.false_ne_true
  case zero | finite => exact unpack_packedInfinity .positive
  case infinity =>
    cases s
    · exact unpack_packedInfinity .positive
    · exact absurd hlt (lt_irrefl _)

/-- What a double stands for decides the differences with it. -/
theorem sub_congr (h : x.toModel.unpack = y.toModel.unpack) (b : Float) : x - b = y - b := by
  show Float.ofModel (Float.Model.pack (UnpackedFloat.sub .binary64 x.toModel.unpack _)) = _
  rw [h]
  rfl

/-- A sum with an infinity is that infinity, if the other term is finite. -/
theorem unpack_infinity_add {s : Sign} (ha : a.toModel.unpack = .infinity s)
    (hb : b.isFinite = true) :
    (a + b).toModel.unpack = .infinity s ∧ (b + a).toModel.unpack = .infinity s := by
  have hfinite : b.toModel.unpack.isFinite = true := hb
  rw [unpack_add, unpack_add, ha]
  cases hu : b.toModel.unpack with
  | zero | finite => exact ⟨unpack_packedInfinity s, unpack_packedInfinity s⟩
  | notANumber | infinity =>
    rw [hu] at hfinite
    exact absurd hfinite Bool.false_ne_true

/-- The difference of a finite double with itself is nothing. -/
theorem sub_self_spec (hx : x.isFinite = true) : (x - x).isFinite = true ∧ units (x - x) = 0 := by
  have hrounds := rounds_sub hx hx
  rw [Int.sub_self] at hrounds
  exact hrounds.exact (unpack_sub x x) ⟨short_zero, Nat.zero_le top⟩ top_pos

/-! ## Absolute values -/

theorem isNaN_abs (u : UnpackedFloat) : u.abs.isNaN = u.isNaN := by
  cases u <;> rfl

theorem isStored_abs {u : UnpackedFloat} (h : IsStored u) : IsStored u.abs := by
  cases u <;> exact h

/-- Nothing is rounded in an absolute value. -/
theorem unpack_abs (hx : x.isNaN = false) : x.abs.toModel.unpack = x.toModel.unpack.abs :=
  unpack_pack_of_isStored (isStored_abs (isStored x)) ((isNaN_abs _).trans hx)

theorem unitsOf_abs (u : UnpackedFloat) : unitsOf u.abs = |unitsOf u| := by
  rcases u with ⟨s⟩ | _ | ⟨s⟩ | ⟨s, m, e, hm⟩
  case notANumber | zero => rfl
  case infinity =>
    rw [unitsOf_infinity, Int.abs_eq_natAbs, natAbs_apply]
    rfl
  case finite =>
    rw [unitsOf, Int.abs_eq_natAbs, natAbs_apply]
    rfl

theorem units_abs (hx : x.isNaN = false) : x.abs.isNaN = false ∧ units x.abs = |units x| := by
  have hread := unpack_abs hx
  constructor
  · exact (congrArg UnpackedFloat.isNaN hread).trans ((isNaN_abs _).trans hx)
  · exact (congrArg unitsOf hread).trans (unitsOf_abs _)

theorem isFinite_abs (x : Float) : x.abs.isFinite = x.isFinite := by
  by_cases hnumber : x.isNaN = false
  · show x.abs.toModel.unpack.isFinite = x.toModel.unpack.isFinite
    rw [unpack_abs hnumber]
    cases x.toModel.unpack <;> rfl
  · show (unpack .binary64 (pack .binary64 x.toModel.unpack.abs)).isFinite =
      x.toModel.unpack.isFinite
    rw [eq_notANumber (u := x.toModel.unpack) hnumber]
    rfl

/-- A positive number is its own absolute value. -/
theorem abs_eq_of_pos {u : UnpackedFloat} (hu : 0 < unitsOf u) : u.abs = u := by
  rcases u with ⟨s⟩ | _ | ⟨s⟩ | ⟨s, m, e, hm⟩
  case notANumber | zero => exact absurd hu (lt_irrefl 0)
  case infinity =>
    have htop := top_pos
    cases s
    · rw [unitsOf_infinity, apply_negative] at hu
      omega
    · rfl
  case finite =>
    cases s
    · rw [unitsOf, apply_negative] at hu
      omega
    · rfl

/-! ## Lengths -/

/-- A vector that is not finite has no finite length. -/
theorem length_eq_or_eq (h : x.isFinite = false ∨ y.isFinite = false) :
    length x y = infinity ∨ length x y = notANumber := by
  have hfinite : ¬ (x.isFinite && y.isFinite) = true := by
    rcases h with h | h <;> simp [h]
  unfold length
  rw [if_neg hfinite]
  split
  · exact .inl rfl
  · exact .inr rfl

/-- A vector with an infinite component is infinitely long, whatever the other one is. -/
theorem length_infinity {s : Sign} (h : x.toModel.unpack = .infinity s) (y : Float) :
    length x y = infinity := by
  have hfinite : x.isFinite = false := congrArg UnpackedFloat.isFinite h
  have hinf : x.isInf = true := congrArg UnpackedFloat.isInf h
  unfold length
  rw [hfinite, hinf, Bool.false_and, Bool.true_or, if_neg Bool.false_ne_true, if_pos rfl]

/-- Adding nothing changes nothing. -/
theorem unpack_add_zero (habs : x.toModel.unpack.abs = x.toModel.unpack)
    (hy : y.toModel.unpack = .zero .positive) : (x + y).toModel.unpack = x.toModel.unpack := by
  have hstored := isStored x
  rw [unpack_add, hy]
  rcases hu : x.toModel.unpack with ⟨s⟩ | _ | ⟨s⟩ | ⟨s, m, e, hm⟩ <;> rw [hu] at hstored habs
  case notANumber => rfl
  case zero =>
    obtain rfl := UnpackedFloat.zero.inj habs
    rfl
  case infinity => exact unpack_packedInfinity s
  case finite => exact unpack_pack_of_isStored hstored rfl

/-- The slack of a large number is not negative. -/
theorem zero_le_mul_slack (hx : x.isFinite = true) (h : lengthHigh < x) :
    0 ≤ x * lengthSlack := by
  obtain ⟨-, -, hlt⟩ := lt_iff.mp h
  have hhigh : units lengthHigh = size (2 ^ 52) 459 := by decide +kernel
  have hstored := isStored x
  have hmul : (x * lengthSlack).toModel.unpack = unpack .binary64 (pack .binary64
      (UnpackedFloat.mul .binary64 x.toModel.unpack
        (.finite .positive (2 ^ 52) (-106) (by decide)))) := rfl
  have hpos := size_pos (Nat.two_pow_pos 52) 459
  have hfinite : x.toModel.unpack.isFinite = true := hx
  rw [hhigh, units] at hlt
  rcases hu : x.toModel.unpack with ⟨s⟩ | _ | ⟨s⟩ | ⟨s, m, e, hm⟩ <;>
    rw [hu] at hstored hmul hlt hfinite
  case infinity | notANumber => exact absurd hfinite Bool.false_ne_true
  case zero =>
    have hzero : unitsOf (.zero s) = 0 := rfl
    omega
  case finite =>
    rw [unitsOf] at hlt
    cases s
    case negative =>
      rw [apply_negative] at hlt
      omega
    case positive =>
      -- a smaller exponent would make the number smaller
      have he : 459 ≤ e := by
        by_contra hsmall
        have hsize : size m e < size (2 ^ 52) 459 :=
          size_lt (Stored.lt hstored) (Stored.low hstored) (by omega) le_rfl
        rw [apply_positive] at hlt
        omega
      have hrounds := rounds_mul (s := .positive) (t := .positive) hm (Nat.two_pow_pos 52) le_rfl
        (show -1074 ≤ e + -106 by omega)
      refine le_iff.mpr ⟨rfl, ?_, ?_⟩
      · exact (congrArg UnpackedFloat.isNaN hmul).trans hrounds.number
      · show 0 ≤ unitsOf _
        rw [hmul]
        exact hrounds.below 0 ⟨short_zero, Nat.zero_le top⟩
          (by rw [zero_mul]; exact Int.natCast_nonneg _)

/-- The length of a vector along an axis is its component, whichever way it is computed. -/
theorem unpack_orderedLength (hx : x.isFinite = true)
    (habs : x.toModel.unpack.abs = x.toModel.unpack) (hy : y.toModel.unpack = .zero .positive) :
    (orderedLength x y).toModel.unpack = x.toModel.unpack := by
  have hzero : units y = 0 := congrArg unitsOf hy
  have hynumber : y.isNaN = false := congrArg UnpackedFloat.isNaN hy
  have hxnumber := (isFinite_iff.mp hx).1
  have hxpos : 0 ≤ units x := by
    rw [units, ← habs, unitsOf_abs]
    exact abs_nonneg _
  unfold orderedLength
  split
  · next hhigh =>
    obtain ⟨-, hnumber, hslack⟩ := le_iff.mp (zero_le_mul_slack hx hhigh)
    rw [if_pos (le_iff.mpr ⟨hynumber, hnumber, hzero.trans_le hslack⟩)]
    exact unpack_add_zero habs hy
  · have hlow : y < lengthLow :=
      lt_iff.mpr ⟨hynumber, by decide +kernel, by rw [hzero]; decide +kernel⟩
    have hquotient : (y / lengthSlack).toModel.unpack = .zero .positive := by
      rw [unpack_div, hy]
      rfl
    have hslack : y / lengthSlack ≤ x := le_iff.mpr
      ⟨congrArg UnpackedFloat.isNaN hquotient, hxnumber, (congrArg unitsOf hquotient).trans_le hxpos⟩
    rw [if_pos hlow, if_pos hslack]
    exact unpack_add_zero habs hy

/-- **A vector along an axis** is as long as its component, also if that is infinite. -/
theorem unpack_length (hx : x.isNaN = false) (hy : y.isFinite = true) (hzero : units y = 0) :
    (length x y).toModel.unpack = x.toModel.unpack.abs := by
  have hynumber := (isFinite_iff.mp hy).1
  by_cases hfinite : x.isFinite = true
  · have hflat : y.abs.toModel.unpack = .zero .positive := by
      obtain ⟨s, hs⟩ := exists_zero (u := y.toModel.unpack) hy hzero
      rw [unpack_abs hynumber, hs]
      rfl
    have hle : ¬ x.abs < y.abs := fun hlt => by
      obtain ⟨-, -, hlt'⟩ := lt_iff.mp hlt
      rw [units, units, hflat, unpack_abs hx, unitsOf_abs] at hlt'
      exact absurd hlt' (not_lt.mpr (abs_nonneg _))
    unfold length
    rw [hfinite, hy, Bool.true_and, if_pos rfl, if_neg hle, ← unpack_abs hx]
    refine unpack_orderedLength ((isFinite_abs x).trans hfinite) ?_ hflat
    rw [unpack_abs hx]
    cases x.toModel.unpack <;> rfl
  · obtain ⟨s, hs⟩ := exists_infinity (u := x.toModel.unpack) hx (Bool.eq_false_iff.mpr hfinite)
    rw [length_infinity hs, hs]
    exact unpack_infinity

/-- So it is no longer than that. -/
theorem length_abs_le (hx : 0 ≤ x) (hy : y.isFinite = true) (hzero : units y = 0) :
    length x.abs y ≤ x := by
  obtain ⟨-, hnumber, hpos⟩ := le_iff.mp hx
  have habs := unpack_abs hnumber
  have hnumber' := (units_abs hnumber).1
  have hread := unpack_length hnumber' hy hzero
  have hlength : (length x.abs y).isNaN = false :=
    (congrArg UnpackedFloat.isNaN hread).trans ((isNaN_abs _).trans hnumber')
  refine le_iff.mpr ⟨hlength, hnumber, le_of_eq ?_⟩
  rw [units, hread, habs, unitsOf_abs, unitsOf_abs, abs_abs]
  exact abs_of_nonneg hpos

end BlockArm.Number
