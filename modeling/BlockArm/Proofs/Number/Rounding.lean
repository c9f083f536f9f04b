/-
# Rounding

A sum or a quotient of doubles is computed exactly and then rounded, to one of the doubles nearest to
it.  Rounding does not pass a double: what a double is below, it is below afterwards, and what it is
above, it stays above.  So a sum with a number that is not negative is no smaller, and a difference
is no larger.

* `OnScale`: the integers that doubles stand for;
* `Nearest`, `Faithful`, `Closest`: quotients that are rounded to a whole number, and to a short one;
* `roundWithAccuracy_spec`: what rounding comes to, given a quotient without its fraction;
* `Rounds`: a closest double to an exact value, without another double between them;
* `le_add`, `sub_le`: sums and differences with what is not negative;
* `isNaN_add`: a sum with a finite double is a number.
-/
import BlockArm.Proofs.Number.Units

namespace BlockArm.Number

open Float.Model (UnpackedFloat Format totalExponent)
open Float.Model.UnpackedFloat

/-! ## Places on the scale -/

/-- A size with at most 53 significant bits: cutting bits off either changes nothing or leaves
fewer than 53 bits. -/
def Short (n : Nat) : Prop := ∀ i, 2 ^ i ∣ n ∨ n < 2 ^ (52 + i)

theorem short_zero : Short 0 := fun _ => .inl (Nat.dvd_zero _)

theorem short_size {m : Nat} (h : m < 2 ^ 53) (e : Int) : Short (size m e) := by
  intro i
  rcases le_or_gt i (e + 1074).toNat with hle | hgt
  · exact .inl (Dvd.dvd.mul_left (Nat.pow_dvd_pow 2 hle) m)
  · refine .inr ?_
    calc size m e < 2 ^ 53 * 2 ^ (e + 1074).toNat :=
          Nat.mul_lt_mul_of_pos_right h (Nat.two_pow_pos _)
      _ = 2 ^ (52 + ((e + 1074).toNat + 1)) := by rw [← Nat.pow_add]; congr 1; omega
      _ ≤ 2 ^ (52 + i) := Nat.pow_le_pow_right (by decide) (by omega)

theorem short_top : Short top := short_size (by decide) 972

/-- The integers that doubles stand for. -/
structure OnScale (c : Int) : Prop where
  short : Short c.natAbs
  le_top : c.natAbs ≤ top

theorem OnScale.neg {c : Int} (h : OnScale c) : OnScale (-c) := by
  obtain ⟨hshort, htop⟩ := h
  exact ⟨by rwa [Int.natAbs_neg], by rwa [Int.natAbs_neg]⟩

theorem onScale_unitsOf {u : UnpackedFloat} (h : IsStored u) : OnScale (unitsOf u) := by
  refine ⟨?_, h.natAbs_units_le⟩
  cases u with
  | notANumber => exact short_zero
  | zero s => exact short_zero
  | infinity s =>
    rw [unitsOf_infinity, natAbs_apply]
    exact short_top
  | finite s m e hm =>
    rw [unitsOf, natAbs_apply]
    exact short_size (Stored.lt h) e

/-! ## The nearest whole number -/

/-- A whole number nearest to the quotient of `n` and `d`. -/
structure Nearest (n d q : Nat) : Prop where
  low : 2 * n ≤ (2 * q + 1) * d
  high : 2 * q * d ≤ 2 * n + d

/-- It is one of the two neighbours of the quotient. -/
theorem Nearest.bounds {n d q : Nat} (h : Nearest n d q) (hd : 0 < d) :
    n / d ≤ q ∧ q ≤ n / d + 1 := by
  obtain ⟨hlow, hhigh⟩ := h
  have hlow' : n < (q + 1) * d := by linarith
  have hhigh' : q * d ≤ n + d := by linarith
  rw [← Nat.add_div_right n hd, Nat.le_div_iff_mul_le hd]
  exact ⟨Nat.le_of_lt_succ ((Nat.div_lt_iff_lt_mul hd).mpr hlow'), hhigh'⟩

/-- A quotient that is exact is the whole number nearest to itself. -/
theorem Nearest.eq_of_mul {p d q : Nat} (h : Nearest (d * p) d q) (hd : 0 < d) : q = p := by
  obtain ⟨hlow, hhigh⟩ := h
  have hle : 2 * p ≤ 2 * q + 1 := Nat.le_of_mul_le_mul_right (by linarith) hd
  have hge : 2 * q ≤ 2 * p + 1 := Nat.le_of_mul_le_mul_right (by linarith) hd
  omega

/-- Both terms of the quotient may be multiplied. -/
theorem Nearest.mul_right {n d q : Nat} (h : Nearest n d q) (k : Nat) :
    Nearest (n * k) (d * k) q where
  low := by
    calc 2 * (n * k) = 2 * n * k := by ring
      _ ≤ (2 * q + 1) * d * k := Nat.mul_le_mul_right k h.low
      _ = (2 * q + 1) * (d * k) := by ring
  high := by
    calc 2 * q * (d * k) = 2 * q * d * k := by ring
      _ ≤ (2 * n + d) * k := Nat.mul_le_mul_right k h.high
      _ = 2 * (n * k) + d * k := by ring

/-- A quotient rounded without passing a value that is short. -/
structure Faithful (n d r : Nat) : Prop where
  below : ∀ c, Short c → c * d ≤ n → c ≤ r
  above : ∀ c, Short c → n ≤ c * d → r ≤ c

/-- A quotient rounded so that no value that is short is closer to it. -/
def Closest (n d r : Nat) : Prop :=
  ∀ c : Nat, Short c → ((r * d - n : Int)).natAbs ≤ ((c * d - n : Int)).natAbs

/-- A short value is a multiple of the last bit that is kept, or else it is smaller than the
quotient. -/
theorem Short.dvd_or_lt {n d i c : Nat} (hc : Short c) (hi : 2 ^ (52 + i) * d ≤ n ∨ i = 0) :
    2 ^ i ∣ c ∨ (c < 2 ^ 52 * 2 ^ i ∧ 2 ^ 52 * (d * 2 ^ i) ≤ n) := by
  rcases hi with hi | rfl
  · rw [show 2 ^ 52 * (d * 2 ^ i) = 2 ^ (52 + i) * d by ring, ← Nat.pow_add]
    exact (hc i).imp_right fun hlt => ⟨hlt, hi⟩
  · exact .inl (one_dvd c)

/-- The nearest multiple of the last bit that is kept is faithful. -/
theorem Nearest.faithful {n d i q : Nat} (h : Nearest n (d * 2 ^ i) q) (hd : 0 < d)
    (hi : 2 ^ (52 + i) * d ≤ n ∨ i = 0) : Faithful n d (q * 2 ^ i) := by
  have hpos : 0 < d * 2 ^ i := Nat.mul_pos hd (Nat.two_pow_pos i)
  obtain ⟨hlow, hhigh⟩ := h.bounds hpos
  have hq : 2 ^ 52 * (d * 2 ^ i) ≤ n → 2 ^ 52 ≤ q := fun hbound =>
    ((Nat.le_div_iff_mul_le hpos).mpr hbound).trans hlow
  refine ⟨?_, ?_⟩
  · intro c hc hle
    rcases hc.dvd_or_lt hi with ⟨k, rfl⟩ | ⟨hlt, hbound⟩
    · have hk : k ≤ n / (d * 2 ^ i) := (Nat.le_div_iff_mul_le hpos).mpr (by linarith)
      rw [Nat.mul_comm]
      exact Nat.mul_le_mul_right _ (hk.trans hlow)
    · exact hlt.le.trans (Nat.mul_le_mul_right _ (hq hbound))
  · intro c hc hle
    rcases hc.dvd_or_lt hi with ⟨k, rfl⟩ | ⟨hlt, hbound⟩
    · rw [Nat.mul_comm _ k]
      refine Nat.mul_le_mul_right _ ?_
      have hle' : n ≤ d * 2 ^ i * k := by linarith
      rcases hle'.eq_or_lt with rfl | hlt
      · exact (h.eq_of_mul hpos).le
      · have hdiv : n / (d * 2 ^ i) < k :=
          (Nat.div_lt_iff_lt_mul hpos).mpr (by rwa [Nat.mul_comm k])
        omega
    · have hmul := Nat.mul_lt_mul_of_pos_right hlt hd
      exact absurd (hbound.trans hle) (by linarith)

/-- No other multiple of the divisor is closer. -/
theorem Nearest.natAbs_le {n d q : Nat} (h : Nearest n d q) (k : Nat) :
    ((q * d - n : Int)).natAbs ≤ ((k * d - n : Int)).natAbs := by
  have hlow : 2 * (n : Int) ≤ 2 * (q * d) + d := by exact_mod_cast (by linarith [h.low])
  have hhigh : 2 * (q * d : Int) ≤ 2 * n + d := by exact_mod_cast (by linarith [h.high])
  rcases Nat.lt_trichotomy k q with hlt | rfl | hgt
  · have hstep : ((k + 1 : Nat) * d : Int) ≤ q * d := by
      exact_mod_cast Nat.mul_le_mul_right d hlt
    push_cast at hstep
    rw [Int.add_mul] at hstep
    omega
  · exact le_rfl
  · have hstep : ((q + 1 : Nat) * d : Int) ≤ k * d := by
      exact_mod_cast Nat.mul_le_mul_right d hgt
    push_cast at hstep
    rw [Int.add_mul] at hstep
    omega

/-- And no short value is closer than the nearest multiple of the last bit. -/
theorem Nearest.closest {n d i q : Nat} (h : Nearest n (d * 2 ^ i) q)
    (hi : 2 ^ (52 + i) * d ≤ n ∨ i = 0) : Closest n d (q * 2 ^ i) := by
  have hcomm : ∀ k : Nat, ((k * 2 ^ i : Nat) * d : Int) = k * (d * 2 ^ i : Nat) := fun k => by
    push_cast
    ring
  intro c hc
  rw [hcomm]
  rcases hc.dvd_or_lt hi with ⟨k, rfl⟩ | ⟨hlt, hbound⟩
  · rw [Nat.mul_comm (2 ^ i) k, hcomm]
    exact h.natAbs_le k
  · -- below all the multiples that matter, the smallest of these is closer
    refine (h.natAbs_le (2 ^ 52)).trans ?_
    have hle : (c * d : Int) ≤ (2 ^ 52 : Nat) * (d * 2 ^ i : Nat) := by
      rw [← hcomm]
      exact_mod_cast Nat.mul_le_mul_right d hlt.le
    have hbound' : ((2 ^ 52 : Nat) * (d * 2 ^ i : Nat) : Int) ≤ n := by exact_mod_cast hbound
    omega

/-! ## Cutting bits off -/

/-- The quotient of `n` and `d` without its fraction, and what is to be known of that. -/
def cut (n d : Nat) : ExtendedMantissa :=
  .ofMantissaAndAccuracy (n / d) (accuracyOfFraction (n % d) d)

/-- The fraction is known by two bits: whether it is a half or more, and whether it is neither
nothing nor a half. -/
theorem cut_eq (n : Nat) {d : Nat} (hd : 0 < d) : cut n d =
    ⟨n / d, decide (d ≤ 2 * (n % d)), decide (n % d ≠ 0 ∧ 2 * (n % d) ≠ d)⟩ := by
  unfold cut accuracyOfFraction
  by_cases hzero : n % d = 0
  · rw [if_pos hzero, hzero]
    simp [ExtendedMantissa.ofMantissaAndAccuracy, hd.ne']
  · rw [if_neg hzero]
    rcases Nat.lt_trichotomy (2 * (n % d)) d with hlt | heq | hgt
    · rw [Nat.compare_eq_lt.mpr hlt]
      simp [ExtendedMantissa.ofMantissaAndAccuracy, hzero, hlt, hlt.ne]
    · rw [Nat.compare_eq_eq.mpr heq]
      simp [ExtendedMantissa.ofMantissaAndAccuracy, heq]
    · rw [Nat.compare_eq_gt.mpr hgt]
      simp [ExtendedMantissa.ofMantissaAndAccuracy, hzero, hgt.le, hgt.ne']

/-- Cutting bits off divides by a power of two. -/
theorem shiftRight_cut (n : Nat) {d : Nat} (hd : 0 < d) (k : Nat) :
    cut n d >>> k = cut n (d * 2 ^ k) := by
  induction k with
  | zero => rw [Nat.pow_zero, Nat.mul_one]; rfl
  | succ k ih =>
    have hstep : cut n d >>> (k + 1) = (cut n d >>> k).shiftRightOne := rfl
    have hpos : 0 < d * 2 ^ k := Nat.mul_pos hd (Nat.two_pow_pos k)
    rw [hstep, ih, Nat.pow_succ, ← Nat.mul_assoc]
    generalize d * 2 ^ k = d' at hpos
    rw [cut_eq n hpos, cut_eq n (Nat.mul_pos hpos two_pos), ExtendedMantissa.shiftRightOne,
      Nat.mod_mul, Nat.div_div_eq_div_mul]
    have hlt := Nat.mod_lt n hpos
    -- the last bit that is left decides whether the fraction becomes a half or more
    have hhalf : (n / d' % 2 != 0) =
        decide (d' * 2 ≤ 2 * (n % d' + d' * (n / d' % 2))) := by
      rw [Bool.eq_iff_iff, bne_iff_ne, decide_eq_true_iff]
      rcases Nat.mod_two_eq_zero_or_one (n / d') with hbit | hbit <;> rw [hbit] <;> omega
    have hrest : (decide (d' ≤ 2 * (n % d')) || decide (n % d' ≠ 0 ∧ 2 * (n % d') ≠ d')) =
        decide (n % d' + d' * (n / d' % 2) ≠ 0 ∧ 2 * (n % d' + d' * (n / d' % 2)) ≠ d' * 2) := by
      rw [Bool.eq_iff_iff, Bool.or_eq_true, decide_eq_true_iff, decide_eq_true_iff,
        decide_eq_true_iff]
      rcases Nat.mod_two_eq_zero_or_one (n / d') with hbit | hbit <;> rw [hbit] <;> omega
    rw [← hhalf, ← hrest]

/-- Rounding chooses the nearest whole number. -/
theorem nearest_roundedMantissa (n : Nat) {d : Nat} (hd : 0 < d) :
    Nearest n d (cut n d).roundedMantissa := by
  have hrounded : (cut n d).roundedMantissa =
      (accuracyOfFraction (n % d) d).roundToNearestEven (n / d) := by
    unfold cut
    generalize accuracyOfFraction (n % d) d = accuracy
    cases accuracy with
    | exact => rfl
    | inexact half => cases half <;> rfl
  have hdiv := Nat.div_add_mod n d
  have hmod := Nat.mod_lt n hd
  rw [hrounded]
  generalize n / d = q at hdiv
  generalize n % d = r at hdiv hmod
  subst hdiv
  unfold accuracyOfFraction
  by_cases hzero : r = 0
  · rw [if_pos hzero, hzero]
    simp only [Accuracy.roundToNearestEven]
    exact ⟨by linarith, by linarith⟩
  · rw [if_neg hzero]
    rcases Nat.lt_trichotomy (2 * r) d with hlt | heq | hgt
    · rw [Nat.compare_eq_lt.mpr hlt]
      simp only [Accuracy.roundToNearestEven]
      exact ⟨by linarith, by linarith⟩
    · rw [Nat.compare_eq_eq.mpr heq]
      simp only [Accuracy.roundToNearestEven]
      rcases Nat.mod_two_eq_zero_or_one q with hbit | hbit <;> rw [hbit]
      · exact ⟨by linarith, by linarith⟩
      · exact ⟨by linarith, by linarith⟩
    · rw [Nat.compare_eq_gt.mpr hgt]
      simp only [Accuracy.roundToNearestEven]
      exact ⟨by linarith, by linarith⟩

/-! ## Rounding -/

/-- A significand that a double can hold has no bits too many. -/
theorem log2_sub_eq_zero {m : Nat} (h : m < 2 ^ 53) : m.log2 - 52 = 0 := by
  by_cases hne : m = 0
  · rw [hne]
    rfl
  · have := (Nat.log2_lt hne).mpr h
    omega

/-- The exponent that rounding aims at. -/
theorem targetExponent_eq (m : Nat) (e : Int) :
    Format.binary64.targetExponent (totalExponent m e) = max (m.log2 + e - 52) (-1074) := by
  have hmin : Format.binary64.minExponent = -1074 := rfl
  have hbits : (Format.binary64.mantissaBits : Int) = 53 := rfl
  unfold Format.targetExponent totalExponent
  rw [hmin, hbits]
  omega

/-- No more bits are cut off than a double cannot hold. -/
theorem shiftToTargetExponent_eq (n : Nat) {d : Nat} (hd : 0 < d) {e : Int} (h : -1074 ≤ e) :
    shiftToTargetExponent .binary64 (n / d) e (accuracyOfFraction (n % d) d) =
      (cut n (d * 2 ^ ((n / d).log2 - 52)), e + (((n / d).log2 - 52 : Nat) : Int)) := by
  have hexcess : (max ((n / d).log2 + e - 52) (-1074) - e).toNat = (n / d).log2 - 52 := by omega
  unfold shiftToTargetExponent shiftToExponent
  simp only [targetExponent_eq, hexcess]
  rw [← shiftRight_cut n hd]
  rfl

/-- So it is for a whole number. -/
theorem shiftToTargetExponent_whole (m : Nat) {e : Int} (h : -1074 ≤ e) :
    shiftToTargetExponent .binary64 m e .exact =
      (cut m (2 ^ (m.log2 - 52)), e + ((m.log2 - 52 : Nat) : Int)) := by
  have hwhole := shiftToTargetExponent_eq m one_pos h
  rwa [Nat.div_one, Nat.mod_one, one_mul] at hwhole

/-- A significand and an exponent, or a zero if there is no significand. -/
def finiteOrZero (s : Sign) (m : Nat) (e : Int) : UnpackedFloat :=
  if h : m = 0 then .zero s else .finite s m e (Nat.pos_of_ne_zero h)

theorem unitsOf_finiteOrZero (s : Sign) (m : Nat) (e : Int) :
    unitsOf (finiteOrZero s m e) = s.apply (size m e) := by
  unfold finiteOrZero
  split
  · next h =>
    rw [h, size, Nat.zero_mul]
    cases s <;> rfl
  · rfl

/-- Rounding shifts twice, the second time after a carry. -/
theorem roundWithAccuracy_eq {s : Sign} {m : Nat} {e e₁ e₂ : Int} {accuracy : Accuracy}
    {a b : ExtendedMantissa} (ha : shiftToTargetExponent .binary64 m e accuracy = (a, e₁))
    (hb : shiftToTargetExponent .binary64 a.roundedMantissa e₁ .exact = (b, e₂)) :
    roundWithAccuracy .binary64 s m e accuracy = finiteOrZero s b.mantissa e₂ := by
  unfold roundWithAccuracy
  simp only [ha, hb]
  rfl

/-- A value that can be packed, to which the quotient of `n` and `d` is rounded. -/
structure Rounded (n d m : Nat) (e : Int) : Prop where
  lt : m < 2 ^ 53
  low : -1074 ≤ e
  full : 2 ^ 52 ≤ m ∨ e = -1074
  faithful : Faithful n d (size m e)
  closest : Closest n d (size m e)
  /-- The significand is a nearest one for this exponent. -/
  nearest : Nearest n (d * 2 ^ (e + 1074).toNat) m

theorem size_mul_two_pow (m d : Nat) {e : Int} (h : -1074 ≤ e) :
    size (m * 2 ^ d) e = size m (e + d) := by
  have hexp : (e + d + 1074).toNat = d + (e + 1074).toNat := by omega
  rw [size, size, hexp, Nat.pow_add, Nat.mul_assoc]

/-- A rounded significand has at most 53 bits, or it is the next power of two. -/
theorem roundedMantissa_range (n : Nat) {d : Nat} (hd : 0 < d) :
    (cut n (d * 2 ^ ((n / d).log2 - 52))).roundedMantissa ≤ 2 ^ 53 ∧
      (2 ^ 52 ≤ n / d → 2 ^ 52 ≤ (cut n (d * 2 ^ ((n / d).log2 - 52))).roundedMantissa) := by
  set k := (n / d).log2 - 52 with hk
  have hpos : 0 < 2 ^ k := Nat.two_pow_pos k
  obtain ⟨hlow, hhigh⟩ :=
    (nearest_roundedMantissa n (Nat.mul_pos hd hpos)).bounds (Nat.mul_pos hd hpos)
  rw [← Nat.div_div_eq_div_mul] at hlow hhigh
  have hquotient : n / d / 2 ^ k < 2 ^ 53 := by
    rw [Nat.div_lt_iff_lt_mul hpos, ← Nat.pow_add]
    exact Nat.lt_log2_self.trans_le (Nat.pow_le_pow_right (by decide) (by omega))
  refine ⟨by omega, fun hbits => le_trans ?_ hlow⟩
  have hne : n / d ≠ 0 := by omega
  have hlog := (Nat.le_log2 hne).mpr hbits
  rw [Nat.le_div_iff_mul_le hpos, ← Nat.pow_add, show 52 + k = (n / d).log2 by omega]
  exact Nat.log2_self_le hne

/-- The rounded significand is nearest to the quotient, and the value is faithful and closest,
before a carry is seen to. -/
theorem rounded_roundedMantissa (n : Nat) {d : Nat} (hd : 0 < d) {e : Int} (he : -1074 ≤ e)
    (hfull : 2 ^ 52 ≤ n / d ∨ e = -1074) {k q : Nat} (hk : k = (n / d).log2 - 52)
    (hq : q = (cut n (d * 2 ^ k)).roundedMantissa) :
    Faithful (size n e) d (size q (e + k)) ∧ Closest (size n e) d (size q (e + k)) ∧
      Nearest (size n e) (d * 2 ^ (e + k + 1074).toNat) q := by
  have hnearest := nearest_roundedMantissa n (Nat.mul_pos hd (Nat.two_pow_pos k))
  rw [← hq] at hnearest
  set a := (e + 1074).toNat with ha
  have hscaled : Nearest (size n e) (d * 2 ^ (k + a)) q := by
    rw [Nat.pow_add, ← Nat.mul_assoc]
    exact hnearest.mul_right (2 ^ a)
  have hexp : (e + k + 1074).toNat = k + a := by omega
  have hsize : size q (e + k) = q * 2 ^ (k + a) := by rw [size, hexp]
  have hkept : 2 ^ (52 + (k + a)) * d ≤ size n e ∨ k + a = 0 := ?_
  · rw [hsize, hexp]
    exact ⟨hscaled.faithful hd hkept, hscaled.closest hkept, hscaled⟩
  by_cases hbits : 2 ^ 52 ≤ n / d
  · refine .inl ?_
    have hne : n / d ≠ 0 := by omega
    have hlog := (Nat.le_log2 hne).mpr hbits
    have hle : 2 ^ (52 + k) * d ≤ n := by
      rw [show 52 + k = (n / d).log2 by omega, ← Nat.le_div_iff_mul_le hd]
      exact Nat.log2_self_le hne
    calc 2 ^ (52 + (k + a)) * d = 2 ^ (52 + k) * d * 2 ^ a := by ring
      _ ≤ n * 2 ^ a := Nat.mul_le_mul_right _ hle
  · refine .inr ?_
    have hexact := hfull.resolve_left hbits
    have hlog := log2_sub_eq_zero (m := n / d) (by omega)
    omega

/-- Rounding cuts the bits off that are too many. -/
theorem roundWithAccuracy_spec (s : Sign) (n : Nat) {d : Nat} (hd : 0 < d) {e : Int}
    (he : -1074 ≤ e) (hfull : 2 ^ 52 ≤ n / d ∨ e = -1074) :
    ∃ m e', roundWithAccuracy .binary64 s (n / d) e (accuracyOfFraction (n % d) d) =
        finiteOrZero s m e' ∧ Rounded (size n e) d m e' := by
  have hshift := shiftToTargetExponent_eq n hd he
  obtain ⟨hle, hbits⟩ := roundedMantissa_range n hd
  set k := (n / d).log2 - 52 with hk
  set q := (cut n (d * 2 ^ k)).roundedMantissa with hq
  obtain ⟨hfaithful, hclosest, hnearest⟩ := rounded_roundedMantissa n hd he hfull hk hq
  have hfull' : 2 ^ 52 ≤ q ∨ e + k = -1074 := by
    by_cases h : 2 ^ 52 ≤ n / d
    · exact .inl (hbits h)
    · have hlog := log2_sub_eq_zero (m := n / d) (by omega)
      exact .inr (by omega)
  have hshift' := shiftToTargetExponent_whole q (e := e + k) (by omega)
  rcases hle.lt_or_eq with hlt | hcarry
  · have hcut : cut q (2 ^ (q.log2 - 52)) = cut q 1 := by rw [log2_sub_eq_zero hlt, Nat.pow_zero]
    rw [hcut, log2_sub_eq_zero hlt, Nat.cast_zero, add_zero] at hshift'
    refine ⟨q, e + k, ?_, hlt, by omega, hfull', hfaithful, hclosest, hnearest⟩
    rw [roundWithAccuracy_eq hshift hshift', cut_eq q one_pos, Nat.div_one]
  · have hlog : q.log2 - 52 = 1 := by rw [hcarry, Nat.log2_two_pow]
    have hmantissa : (cut q (2 ^ 1)).mantissa = 2 ^ 52 := by
      rw [cut_eq q (Nat.two_pow_pos 1), hcarry]
      rfl
    have hsize : size q (e + k) = size (2 ^ 52) (e + k + 1) := by
      rw [hcarry, show 2 ^ 53 = 2 ^ 52 * 2 ^ 1 from rfl, size_mul_two_pow _ _ (by omega)]
      rfl
    rw [hlog] at hshift'
    refine ⟨2 ^ 52, e + k + 1, ?_, by decide, by omega, .inl le_rfl, hsize ▸ hfaithful,
      hsize ▸ hclosest, ?_⟩
    · rw [roundWithAccuracy_eq hshift hshift', hmantissa]
      rfl
    · -- with the larger exponent the bounds are twice as wide
      obtain ⟨hlow, hhigh⟩ := hnearest
      have hexp : (e + k + 1 + 1074).toNat = (e + k + 1074).toNat + 1 := by omega
      rw [hcarry] at hlow hhigh
      rw [hexp, Nat.pow_succ]
      generalize 2 ^ (e + k + 1074).toNat = unit at hlow hhigh
      exact ⟨by nlinarith, by nlinarith⟩

/-- Rounding begins by making the significand long enough. -/
theorem round_spec (s : Sign) {m : Nat} {e : Int} (hm : 0 < m) (he : -1074 ≤ e) :
    ∃ m' e', round .binary64 s m e = finiteOrZero s m' e' ∧ Rounded (size m e) 1 m' e' := by
  have hlog : 2 ^ m.log2 ≤ m := Nat.log2_self_le hm.ne'
  set d := (e - max (m.log2 + e - 52) (-1074)).toNat with hd
  have hround : round .binary64 s m e =
      roundWithAccuracy .binary64 s (m * 2 ^ d) (e - d) .exact := by
    unfold UnpackedFloat.round decreaseExponent
    simp only [targetExponent_eq, ← hd, Nat.shiftLeft_eq]
  have hfull : 2 ^ 52 ≤ m * 2 ^ d ∨ e - d = -1074 := by
    by_cases h : -1074 ≤ m.log2 + e - 52
    · refine .inl (le_trans ?_ (Nat.mul_le_mul_right _ hlog))
      rw [← Nat.pow_add]
      exact Nat.pow_le_pow_right (by decide) (by omega)
    · exact .inr (by omega)
  have hsize : size (m * 2 ^ d) (e - d) = size m e := by
    rw [size_mul_two_pow _ _ (by omega), Int.sub_add_cancel]
  have hspec := roundWithAccuracy_spec s (m * 2 ^ d) one_pos (e := e - d) (by omega)
    (by rwa [Nat.div_one])
  rw [Nat.div_one, Nat.mod_one, hsize] at hspec
  rwa [hround]

/-! ## Doubles -/

/-- What is read back after packing is a number, and it is the quotient of `x` and `d`, rounded
without passing an integer that a double stands for, and to one that is closest. -/
structure Rounds (x : Int) (d : Nat) (u : UnpackedFloat) : Prop where
  number : (unpack .binary64 (pack .binary64 u)).isNaN = false
  below : ∀ c, OnScale c → c * d ≤ x → c ≤ unitsOf (unpack .binary64 (pack .binary64 u))
  above : ∀ c, OnScale c → x ≤ c * d → unitsOf (unpack .binary64 (pack .binary64 u)) ≤ c
  closest : ∀ c, OnScale c →
    (unitsOf (unpack .binary64 (pack .binary64 u)) * d - x).natAbs ≤ (c * d - x).natAbs

/-- A value that is stored need not be rounded. -/
theorem unpack_pack_of_isStored {u : UnpackedFloat} (h : IsStored u) (hn : u.isNaN = false) :
    unpack .binary64 (pack .binary64 u) = u := by
  cases u with
  | notANumber => exact absurd hn.symm Bool.false_ne_true
  | zero s => exact unpack_packedZero
  | infinity s => exact unpack_packedInfinity s
  | finite s m e hm =>
    have hstored : Stored m e := h
    rw [unpack_pack hm hstored.lt hstored.low hstored.full, if_pos hstored.high]

theorem rounds_of_isStored {u : UnpackedFloat} (h : IsStored u) (hn : u.isNaN = false) :
    Rounds (unitsOf u) 1 u := by
  have hread := unpack_pack_of_isStored h hn
  refine ⟨by rwa [hread], fun c _ hle => ?_, fun c _ hle => ?_, fun c _ => ?_⟩ <;> rw [hread]
  · rwa [Nat.cast_one, mul_one] at hle
  · rwa [Nat.cast_one, mul_one] at hle
  · rw [Nat.cast_one, mul_one, Int.sub_self]
    exact Nat.zero_le _

/-- A value that can be packed is read back, or it was too large. -/
theorem Rounded.unpack_pack {n d m : Nat} {e : Int} (h : Rounded n d m e) (s : Sign) :
    unpack .binary64 (pack .binary64 (finiteOrZero s m e)) =
      if m = 0 ∨ e ≤ 971 then finiteOrZero s m e else .infinity s := by
  unfold finiteOrZero
  by_cases hm : m = 0
  · rw [dif_pos hm, if_pos (.inl hm)]
    exact unpack_packedZero
  · rw [dif_neg hm, Number.unpack_pack (Nat.pos_of_ne_zero hm) h.lt h.low h.full]
    simp only [hm, false_or]

/-- What is read back of a rounded value, without its sign, is faithful and closest, also if it
becomes an infinity. -/
theorem Rounded.exists_read {n d m : Nat} {e : Int} (h : Rounded n d m e) (hd : 0 < d) (s : Sign) :
    ∃ r : Nat, unitsOf (unpack .binary64 (pack .binary64 (finiteOrZero s m e))) = s.apply r ∧
      (unpack .binary64 (pack .binary64 (finiteOrZero s m e))).isNaN = false ∧
      (∀ c : Int, OnScale c → c * d ≤ n → c ≤ r) ∧
      (∀ c : Int, OnScale c → n ≤ c * d → r ≤ c) ∧
      (∀ c : Int, OnScale c → (r * d - n : Int).natAbs ≤ (c * d - n).natAbs) := by
  obtain ⟨r, hread, hnumber, hbelow, habove, hclosest⟩ : ∃ r : Nat,
      unitsOf (unpack .binary64 (pack .binary64 (finiteOrZero s m e))) = s.apply r ∧
      (unpack .binary64 (pack .binary64 (finiteOrZero s m e))).isNaN = false ∧
      (∀ c, Short c → c ≤ top → c * d ≤ n → c ≤ r) ∧
      (∀ c, Short c → n ≤ c * d → r ≤ c) ∧
      (∀ c : Nat, Short c → c ≤ top → (r * d - n : Int).natAbs ≤ (c * d - n : Int).natAbs) := by
    rw [h.unpack_pack]
    by_cases hlarge : m = 0 ∨ e ≤ 971
    · rw [if_pos hlarge]
      refine ⟨size m e, unitsOf_finiteOrZero s m e, ?_, fun c hc _ => h.faithful.below c hc,
        h.faithful.above, fun c hc _ => h.closest c hc⟩
      unfold finiteOrZero
      split <;> rfl
    · rw [if_neg hlarge]
      have hbits : 2 ^ 52 ≤ m := h.full.resolve_right (by omega)
      have htop : top ≤ size m e := by
        rcases (show 972 ≤ e by omega).eq_or_lt with rfl | hlt
        · exact Nat.mul_le_mul_right _ hbits
        · exact (size_lt (by decide) (by decide) hlt hbits).le
      refine ⟨top, rfl, rfl, fun c _ hle _ => hle, fun c hc hle =>
        htop.trans (h.faithful.above c hc hle), fun c hc hle => ?_⟩
      -- what is too large lies beyond the infinity, or the infinity is closest
      have hmul : (c * d : Int) ≤ top * d := by exact_mod_cast Nat.mul_le_mul_right d hle
      rcases le_or_gt (top * d) n with hbeyond | hwithin
      · have hbeyond' : (top * d : Int) ≤ n := by exact_mod_cast hbeyond
        omega
      · have heq := (h.faithful.above top short_top hwithin.le).antisymm htop
        rw [← heq]
        exact h.closest c hc
  refine ⟨r, hread, hnumber, fun c hc hle => ?_, fun c hc hle => ?_, fun c hc => ?_⟩
  · rcases le_or_gt 0 c with hpos | hneg
    · obtain ⟨k, rfl⟩ := Int.eq_ofNat_of_zero_le hpos
      exact_mod_cast hbelow k hc.short hc.le_top (by exact_mod_cast hle)
    · omega
  · rcases le_or_gt 0 c with hpos | hneg
    · obtain ⟨k, rfl⟩ := Int.eq_ofNat_of_zero_le hpos
      exact_mod_cast habove k hc.short (by exact_mod_cast hle)
    · have hmul : c * d < 0 := Int.mul_neg_of_neg_of_pos hneg (by exact_mod_cast hd)
      omega
  · rcases le_or_gt 0 c with hpos | hneg
    · obtain ⟨k, rfl⟩ := Int.eq_ofNat_of_zero_le hpos
      exact hclosest k hc.short hc.le_top
    · have hmul : c * d < 0 := Int.mul_neg_of_neg_of_pos hneg (by exact_mod_cast hd)
      have hzero := hclosest 0 short_zero (Nat.zero_le top)
      rw [Nat.cast_zero, zero_mul] at hzero
      omega

/-- A rounded value is faithful and closest with either sign. -/
theorem rounds_of_rounded (s : Sign) {n d m : Nat} {e : Int} (h : Rounded n d m e) (hd : 0 < d) :
    Rounds (s.apply n) d (finiteOrZero s m e) := by
  obtain ⟨r, hread, hnumber, hbelow, habove, hclosest⟩ := h.exists_read hd s
  refine ⟨hnumber, fun c hc hle => ?_, fun c hc hle => ?_, fun c hc => ?_⟩ <;> rw [hread]
  · cases s with
    | positive => exact hbelow c hc hle
    | negative =>
      rw [apply_negative] at hle ⊢
      exact le_neg_of_le_neg (habove (-c) hc.neg (by rw [neg_mul]; exact le_neg_of_le_neg hle))
  · cases s with
    | positive => exact habove c hc hle
    | negative =>
      rw [apply_negative] at hle ⊢
      exact neg_le_of_neg_le (hbelow (-c) hc.neg (by rw [neg_mul]; exact neg_le_of_neg_le hle))
  · cases s with
    | positive => exact hclosest c hc
    | negative =>
      have hmirrored := hclosest (-c) hc.neg
      rw [neg_mul] at hmirrored
      rw [apply_negative, apply_negative, neg_mul]
      omega

/-- An exact value is rounded. -/
theorem rounds_normalize (m : Int) {e : Int} (he : -1074 ≤ e) (z : Sign) :
    Rounds (m * 2 ^ (e + 1074).toNat) 1 (normalize .binary64 m e z) := by
  have hsign : ∀ (s : Sign) {n : Nat}, 0 < n →
      Rounds (s.apply n * 2 ^ (e + 1074).toNat) 1 (round .binary64 s n e) := by
    intro s n hn
    obtain ⟨m', e', hround, hrounded⟩ := round_spec s hn he
    have hvalue : s.apply n * 2 ^ (e + 1074).toNat = s.apply (size n e) := by
      cases s <;> simp [size]
    rw [hround, hvalue]
    exact rounds_of_rounded s hrounded one_pos
  unfold UnpackedFloat.normalize
  split
  · next hlt =>
    have hneg := compare_lt_iff_lt.mp hlt
    have hcast : Sign.negative.apply ((-m).toNat : Int) = m := by
      rw [apply_negative]
      omega
    have hround := hsign .negative (n := (-m).toNat) (by omega)
    rwa [hcast] at hround
  · next heq =>
    obtain rfl := compare_eq_iff_eq.mp heq
    rw [zero_mul]
    exact rounds_of_isStored (u := .zero z) trivial rfl
  · next hgt =>
    have hpos := compare_gt_iff_gt.mp hgt
    have hcast : Sign.positive.apply (m.toNat : Int) = m := by
      rw [apply_positive]
      omega
    have hround := hsign .positive (n := m.toNat) (by omega)
    rwa [hcast] at hround

theorem apply_mul (s : Sign) (a b : Int) : s.apply a * b = s.apply (a * b) := by
  cases s
  · exact neg_mul a b
  · rfl

/-- The sum of two finite doubles is rounded. -/
theorem rounds_add {u v : UnpackedFloat} (hu : IsStored u) (hv : IsStored v)
    (hfu : u.isFinite = true) (hfv : v.isFinite = true) :
    Rounds (unitsOf u + unitsOf v) 1 (UnpackedFloat.add .binary64 u v) := by
  rcases u with ⟨s⟩ | _ | ⟨s⟩ | ⟨s, m, e, hm⟩ <;> rcases v with ⟨t⟩ | _ | ⟨t⟩ | ⟨t, m', e', hm'⟩
  case infinity.infinity | infinity.notANumber | infinity.zero | infinity.finite |
      notANumber.infinity | notANumber.notANumber | notANumber.zero | notANumber.finite =>
    exact absurd hfu Bool.false_ne_true
  case zero.infinity | zero.notANumber | finite.infinity | finite.notANumber =>
    exact absurd hfv Bool.false_ne_true
  case zero.zero =>
    have hzero : ∃ z, UnpackedFloat.add .binary64 (.zero s) (.zero t) = .zero z := by
      cases s <;> cases t <;> exact ⟨_, rfl⟩
    obtain ⟨z, hz⟩ := hzero
    rw [hz]
    exact rounds_of_isStored (u := .zero z) trivial rfl
  case zero.finite =>
    rw [show unitsOf (.zero s) = 0 from rfl, zero_add]
    exact rounds_of_isStored hv rfl
  case finite.zero =>
    rw [show unitsOf (.zero t) = 0 from rfl, add_zero]
    exact rounds_of_isStored hu rfl
  case finite.finite =>
    have he := hu.low
    have he' := hv.low
    have hmin : -1074 ≤ min e e' := le_min he he'
    -- both operands are brought to the smaller exponent
    have hcommon : ∀ (s : Sign) (m : Nat) {c : Int}, min e e' ≤ c →
        s.apply (m <<< (c - min e e').toNat : Nat) * 2 ^ (min e e' + 1074).toNat =
          s.apply (size m c) := by
      intro s m c hc
      have hexp : (c + 1074).toNat = (c - min e e').toNat + (min e e' + 1074).toNat := by omega
      rw [apply_mul, Nat.shiftLeft_eq, size, hexp, Nat.pow_add, ← Nat.mul_assoc]
      push_cast
      rfl
    have hsum := rounds_normalize
      (s.apply (m <<< (e - min e e').toNat : Nat) + t.apply (m' <<< (e' - min e e').toNat : Nat))
      hmin .positive
    rw [add_mul, hcommon s m (min_le_left e e'), hcommon t m' (min_le_right e e')] at hsum
    exact hsum

/-! ## Sums and differences -/

theorem neg_apply (s : Sign) (n : Int) : (-s).apply n = -s.apply n := by
  cases s
  · exact (neg_neg n).symm
  · rfl

/-- A difference is a sum with the opposite. -/
theorem sub_eq_add_neg (u v : UnpackedFloat) :
    UnpackedFloat.sub .binary64 u v = UnpackedFloat.add .binary64 u v.neg := by
  rcases u with ⟨s⟩ | _ | ⟨s⟩ | ⟨s, m, e, hm⟩ <;> rcases v with ⟨t⟩ | _ | ⟨t⟩ | ⟨t, m', e', hm'⟩
  case finite.finite =>
    simp only [UnpackedFloat.sub, UnpackedFloat.neg, UnpackedFloat.add, neg_apply]
    rfl
  all_goals rfl

theorem unitsOf_neg (u : UnpackedFloat) : unitsOf u.neg = -unitsOf u := by
  rcases u with ⟨s⟩ | _ | ⟨s⟩ | ⟨s, m, e, hm⟩
  case notANumber | zero => rfl
  case infinity | finite => exact neg_apply s _

theorem isStored_neg {u : UnpackedFloat} (h : IsStored u) : IsStored u.neg := by
  cases u <;> exact h

/-- How a sum comes about that is a number: the exact sum was rounded, or one of its terms is an
infinity, which is the sum. -/
inductive SumOf (u v w : UnpackedFloat) : Prop where
  | rounded (h : Rounds (unitsOf u + unitsOf v) 1 w)
  | infinite (s : Sign) (h : w = .infinity s) (hterm : u = .infinity s ∨ v = .infinity s)

/-- What is read back is a number only where a number was packed. -/
theorem isNaN_of_unpack {w : UnpackedFloat}
    (h : (unpack .binary64 (pack .binary64 w)).isNaN = false) : w.isNaN = false := by
  cases w with
  | notANumber =>
    have hread : unpack .binary64 (pack .binary64 .notANumber) = .notANumber := rfl
    rw [hread] at h
    exact h
  | _ => rfl

/-- A finite double can be added to any number. -/
theorem sumOf_finite {u v : UnpackedFloat} (hu : IsStored u) (hv : IsStored v)
    (hnumber : u.isNaN = false) (hfinite : v.isFinite = true) :
    SumOf u v (UnpackedFloat.add .binary64 u v) := by
  by_cases hfu : u.isFinite = true
  · exact .rounded (rounds_add hu hv hfu hfinite)
  · rcases u with ⟨s⟩ | _ | ⟨s⟩ | ⟨s, m, e, hm⟩
    case notANumber => exact absurd hnumber.symm Bool.false_ne_true
    case zero | finite => exact absurd rfl hfu
    case infinity =>
      cases v with
      | notANumber | infinity _ => exact absurd hfinite Bool.false_ne_true
      | _ => exact .infinite s rfl (.inl rfl)

/-- Any two doubles can be added whose sum is a number. -/
theorem sumOf_add {u v : UnpackedFloat} (hu : IsStored u) (hv : IsStored v)
    (h : (UnpackedFloat.add .binary64 u v).isNaN = false) :
    SumOf u v (UnpackedFloat.add .binary64 u v) := by
  by_cases hfinite : u.isFinite = true ∧ v.isFinite = true
  · exact .rounded (rounds_add hu hv hfinite.1 hfinite.2)
  rcases u with ⟨s⟩ | _ | ⟨s⟩ | ⟨s, m, e, hm⟩ <;> rcases v with ⟨t⟩ | _ | ⟨t⟩ | ⟨t, m', e', hm'⟩
  case zero.zero | zero.finite | finite.zero | finite.finite => exact absurd ⟨rfl, rfl⟩ hfinite
  case infinity.zero | infinity.finite => exact .infinite s rfl (.inl rfl)
  case zero.infinity | finite.infinity => exact .infinite t rfl (.inr rfl)
  case infinity.infinity =>
    cases s <;> cases t
    case negative.negative => exact .infinite .negative rfl (.inl rfl)
    case positive.positive => exact .infinite .positive rfl (.inl rfl)
    all_goals exact absurd h.symm Bool.false_ne_true
  all_goals exact absurd h.symm Bool.false_ne_true

/-- What is read back is no number only where no number was packed. -/
theorem SumOf.isNaN {u v w : UnpackedFloat} (h : SumOf u v w) :
    (unpack .binary64 (pack .binary64 w)).isNaN = false := by
  cases h with
  | rounded h => exact h.number
  | infinite s h hterm =>
    rw [h]
    exact congrArg UnpackedFloat.isNaN (unpack_packedInfinity s)

/-- A sum with a term that is not negative is no smaller. -/
theorem SumOf.le {u v w : UnpackedFloat} (h : SumOf u v w) (hu : IsStored u)
    (hv : 0 ≤ unitsOf v) : unitsOf u ≤ unitsOf (unpack .binary64 (pack .binary64 w)) := by
  cases h with
  | rounded h => exact h.below _ (onScale_unitsOf hu) (by omega)
  | infinite s h hterm =>
    rw [h, show unpack _ (pack _ (.infinity s)) = .infinity s from unpack_packedInfinity s]
    rcases hterm with rfl | rfl
    · exact le_rfl
    · have hbound := hu.natAbs_units_le
      have htop := top_pos
      cases s <;> simp only [unitsOf_infinity, apply_positive, apply_negative] at hv ⊢ <;> omega

/-- A sum with a term that is not positive is no larger. -/
theorem SumOf.ge {u v w : UnpackedFloat} (h : SumOf u v w) (hu : IsStored u)
    (hv : unitsOf v ≤ 0) : unitsOf (unpack .binary64 (pack .binary64 w)) ≤ unitsOf u := by
  cases h with
  | rounded h => exact h.above _ (onScale_unitsOf hu) (by omega)
  | infinite s h hterm =>
    rw [h, show unpack _ (pack _ (.infinity s)) = .infinity s from unpack_packedInfinity s]
    rcases hterm with rfl | rfl
    · exact le_rfl
    · have hbound := hu.natAbs_units_le
      have htop := top_pos
      cases s <;> simp only [unitsOf_infinity, apply_positive, apply_negative] at hv ⊢ <;> omega

/-! ### On doubles -/

variable {a b : Float}

theorem unpack_add (a b : Float) : (a + b).toModel.unpack = unpack .binary64
    (pack .binary64 (UnpackedFloat.add .binary64 a.toModel.unpack b.toModel.unpack)) := rfl

theorem unpack_div (a b : Float) : (a / b).toModel.unpack = unpack .binary64
    (pack .binary64 (UnpackedFloat.div .binary64 a.toModel.unpack b.toModel.unpack)) := rfl

/-- A difference of doubles is read back as a sum with the opposite. -/
theorem unpack_sub (a b : Float) : (a - b).toModel.unpack = unpack .binary64
    (pack .binary64 (UnpackedFloat.add .binary64 a.toModel.unpack b.toModel.unpack.neg)) := by
  rw [← sub_eq_add_neg]
  rfl

theorem isFinite_neg {u : UnpackedFloat} (h : u.isFinite = true) : u.neg.isFinite = true := by
  cases u <;> exact h

/-- Differences of finite doubles are rounded, too. -/
theorem rounds_sub (ha : a.isFinite = true) (hb : b.isFinite = true) : Rounds (units a - units b) 1
    (UnpackedFloat.add .binary64 a.toModel.unpack b.toModel.unpack.neg) := by
  have hsum := rounds_add (isStored a) (isStored_neg (isStored b)) ha (isFinite_neg hb)
  rwa [unitsOf_neg, ← Int.sub_eq_add_neg] at hsum

/-- A number plus a finite one is a number. -/
theorem isNaN_add (ha : a.isNaN = false) (hb : b.isFinite = true) : (a + b).isNaN = false :=
  (sumOf_finite (isStored a) (isStored b) ha hb).isNaN

/-- A number minus a finite one is a number. -/
theorem isNaN_sub (ha : a.isNaN = false) (hb : b.isFinite = true) : (a - b).isNaN = false :=
  (congrArg UnpackedFloat.isNaN (unpack_sub a b)).trans
    (sumOf_finite (isStored a) (isStored_neg (isStored b)) ha (isFinite_neg hb)).isNaN

theorem zero_le_units (hb : 0 ≤ b) : 0 ≤ units b := (le_iff.mp hb).2.2

theorem isNaN_left {u v : UnpackedFloat} (h : (UnpackedFloat.add .binary64 u v).isNaN = false) :
    u.isNaN = false := by
  cases u with
  | notANumber => exact h
  | _ => rfl

/-- A sum with what is not negative is no smaller. -/
theorem le_add (hb : 0 ≤ b) (h : (a + b).isNaN = false) : a ≤ a + b := by
  have hnumber := isNaN_of_unpack h
  have hsum := sumOf_add (isStored a) (isStored b) hnumber
  exact le_iff.mpr ⟨isNaN_left hnumber, h, hsum.le (isStored a) (zero_le_units hb)⟩

/-- A sum with what is not positive is no larger. -/
theorem add_le (hb : b ≤ 0) (h : (a + b).isNaN = false) : a + b ≤ a := by
  have hnumber := isNaN_of_unpack h
  have hsum := sumOf_add (isStored a) (isStored b) hnumber
  exact le_iff.mpr ⟨h, isNaN_left hnumber, hsum.ge (isStored a) (le_iff.mp hb).2.2⟩

/-- A difference with what is not negative is no larger. -/
theorem sub_le (hb : 0 ≤ b) (h : (a - b).isNaN = false) : a - b ≤ a := by
  have hneg : unitsOf b.toModel.unpack.neg ≤ 0 := by
    rw [unitsOf_neg]
    exact neg_nonpos.mpr (zero_le_units hb)
  have hnumber := isNaN_of_unpack
    ((congrArg UnpackedFloat.isNaN (unpack_sub a b)).symm.trans h)
  have hsum := sumOf_add (isStored a) (isStored_neg (isStored b)) hnumber
  refine le_iff.mpr ⟨h, isNaN_left hnumber, ?_⟩
  rw [units, unpack_sub]
  exact hsum.ge (isStored a) hneg

end BlockArm.Number
