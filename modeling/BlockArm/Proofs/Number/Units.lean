/-
# Doubles on an integer scale

Every finite double is a whole multiple of the smallest positive one, `2 ^ -1074`.  Counted in these
units, and with the infinities one step beyond the largest double, comparisons of doubles become
comparisons of integers.

* `Stored`: the significands and exponents that a double can hold;
* `units`: a double on the scale; what is no number counts as zero there;
* `le_iff`, `lt_iff`, `beq_iff`: comparisons of doubles;
* `unpack_pack`: what is packed is read back, unless its exponent is too large.
-/
import BlockArm.Number.Exact
import Mathlib

namespace BlockArm.Number

open Float.Model (UnpackedFloat Format)
open Float.Model.UnpackedFloat (Sign)

/-! ## The scale -/

/-- A positive value that a double holds: the significand has all its bits unless the exponent is
the smallest one. -/
structure Stored (m : Nat) (e : Int) : Prop where
  lt : m < 2 ^ 53
  low : -1074 ≤ e
  high : e ≤ 971
  full : 2 ^ 52 ≤ m ∨ e = -1074

/-- The value `m · 2 ^ e` in units. -/
def size (m : Nat) (e : Int) : Nat := m * 2 ^ (e + 1074).toNat

/-- An infinity in units: it comes where the next larger double would. -/
def top : Nat := size (2 ^ 52) 972

/-- A double read apart, in units. -/
def unitsOf : UnpackedFloat → Int
  | .notANumber | .zero _ => 0
  | .infinity s => s.apply top
  | .finite s m e _ => s.apply (size m e)

/-- A double in units. -/
def units (x : Float) : Int := unitsOf x.toModel.unpack

@[simp] theorem apply_positive (n : Int) : Sign.positive.apply n = n := rfl

@[simp] theorem apply_negative (n : Int) : Sign.negative.apply n = -n := rfl

/-- A sign does not change how large a value is. -/
theorem natAbs_apply (s : Sign) (n : Nat) : (s.apply (n : Int)).natAbs = n := by
  cases s with
  | positive => exact Int.natAbs_natCast n
  | negative => exact (Int.natAbs_neg n).trans (Int.natAbs_natCast n)

theorem unitsOf_infinity (s : Sign) : unitsOf (.infinity s) = s.apply top := rfl

theorem size_pos {m : Nat} (hm : 0 < m) (e : Int) : 0 < size m e :=
  Nat.mul_pos hm (Nat.two_pow_pos _)

theorem top_pos : 0 < top := size_pos (Nat.two_pow_pos 52) 972

/-- A larger exponent makes a larger value. -/
theorem size_lt {m m' : Nat} {e e' : Int} (h : m < 2 ^ 53) (he : -1074 ≤ e) (hlt : e < e')
    (h' : 2 ^ 52 ≤ m') : size m e < size m' e' := by
  have hexp : (e' + 1074).toNat = (e + 1074).toNat + 1 + (e' - e - 1).toNat := by omega
  calc size m e < 2 ^ 53 * 2 ^ (e + 1074).toNat := Nat.mul_lt_mul_of_pos_right h (Nat.two_pow_pos _)
    _ = 2 ^ 52 * 2 ^ ((e + 1074).toNat + 1) := by ring
    _ ≤ 2 ^ 52 * 2 ^ (e' + 1074).toNat := Nat.mul_le_mul_left _
        (Nat.pow_le_pow_right (by decide) (by omega))
    _ ≤ size m' e' := Nat.mul_le_mul_right _ h'

/-- Every finite double lies below infinity. -/
theorem Stored.size_lt_top {m : Nat} {e : Int} (h : Stored m e) : size m e < top :=
  size_lt h.lt h.low (by have := h.high; omega) le_rfl

/-! ## Comparisons -/

/-- The larger value has the larger exponent or, with one exponent, the larger significand. -/
theorem Stored.compare_eq {m m' : Nat} {e e' : Int} (h : Stored m e) (h' : Stored m' e') :
    (compare e e').then (compare m m') = compare (size m e : Int) (size m' e') := by
  rcases lt_trichotomy e e' with hlt | rfl | hgt
  · have hfull : 2 ^ 52 ≤ m' := h'.full.resolve_right (by have := h.low; omega)
    have hsize := Int.ofNat_lt.mpr (size_lt h.lt h.low hlt hfull)
    rw [compare_lt_iff_lt.mpr hlt, compare_lt_iff_lt.mpr hsize]
    rfl
  · have hsize : ∀ {n n' : Nat}, n < n' → (size n e : Int) < size n' e := fun hn =>
      Int.ofNat_lt.mpr (Nat.mul_lt_mul_of_pos_right hn (Nat.two_pow_pos _))
    rw [compare_eq_iff_eq.mpr rfl, Ordering.eq_then]
    rcases lt_trichotomy m m' with hlt | rfl | hgt
    · rw [compare_lt_iff_lt.mpr hlt, compare_lt_iff_lt.mpr (hsize hlt)]
    · rw [compare_eq_iff_eq.mpr rfl, compare_eq_iff_eq.mpr rfl]
    · rw [compare_gt_iff_gt.mpr hgt, compare_gt_iff_gt.mpr (hsize hgt)]
  · have hfull : 2 ^ 52 ≤ m := h.full.resolve_right (by have := h'.low; omega)
    have hsize := Int.ofNat_lt.mpr (size_lt h'.lt h'.low hgt hfull)
    rw [compare_gt_iff_gt.mpr hgt, compare_gt_iff_gt.mpr hsize]
    rfl

theorem compare_neg (a b : Int) : compare (-a) (-b) = (compare a b).swap := by
  rcases lt_trichotomy a b with hlt | rfl | hgt
  · rw [compare_lt_iff_lt.mpr hlt, compare_gt_iff_gt.mpr (neg_lt_neg hlt)]
    rfl
  · rw [compare_eq_iff_eq.mpr rfl, compare_eq_iff_eq.mpr rfl]
    rfl
  · rw [compare_gt_iff_gt.mpr hgt, compare_lt_iff_lt.mpr (neg_lt_neg hgt)]
    rfl

/-- What a double can be when it is read apart. -/
def IsStored : UnpackedFloat → Prop
  | .notANumber | .zero _ | .infinity _ => True
  | .finite _ m e _ => Stored m e

/-- No double lies beyond the infinities. -/
theorem IsStored.natAbs_units_le {u : UnpackedFloat} (h : IsStored u) :
    (unitsOf u).natAbs ≤ top := by
  cases u with
  | notANumber => exact Nat.zero_le _
  | zero s => exact Nat.zero_le _
  | infinity s => exact (natAbs_apply s top).le
  | finite s m e hm => exact (natAbs_apply s (size m e)).le.trans (Stored.size_lt_top h).le

/-- Finite doubles other than zero compare as they do on the scale. -/
theorem compare_finite {s t : Sign} {m m' : Nat} {e e' : Int} (hm : 0 < m) (hm' : 0 < m')
    (h : Stored m e) (h' : Stored m' e') :
    (UnpackedFloat.finite s m e hm).compare (.finite t m' e' hm') =
      some (compare (s.apply (size m e)) (t.apply (size m' e'))) := by
  have hpos := size_pos hm e
  have hpos' := size_pos hm' e'
  cases s <;> cases t <;> simp only [UnpackedFloat.compare, apply_positive, apply_negative]
  case negative.negative => rw [compare_neg, h.compare_eq h']
  case negative.positive => rw [compare_lt_iff_lt.mpr (by omega)]
  case positive.negative => rw [compare_gt_iff_gt.mpr (by omega)]
  case positive.positive => rw [h.compare_eq h']

/-- Doubles that are numbers compare as they do on the scale. -/
theorem compare_eq {u v : UnpackedFloat} (hu : IsStored u) (hv : IsStored v)
    (hnu : u.isNaN = false) (hnv : v.isNaN = false) :
    u.compare v = some (compare (unitsOf u) (unitsOf v)) := by
  have hlt : ∀ {a b : Int}, a < b → some Ordering.lt = some (compare a b) := fun h =>
    congrArg some (compare_lt_iff_lt.mpr h).symm
  have hgt : ∀ {a b : Int}, b < a → some Ordering.gt = some (compare a b) := fun h =>
    congrArg some (compare_gt_iff_gt.mpr h).symm
  have heq : ∀ a : Int, some Ordering.eq = some (compare a a) := fun a =>
    congrArg some (compare_eq_iff_eq.mpr rfl).symm
  have htop := top_pos
  rcases u with ⟨s⟩ | _ | ⟨s⟩ | ⟨s, m, e, hm⟩ <;> rcases v with ⟨t⟩ | _ | ⟨t⟩ | ⟨t, m', e', hm'⟩
  case notANumber.infinity | notANumber.notANumber | notANumber.zero | notANumber.finite =>
    exact absurd hnu.symm Bool.false_ne_true
  case infinity.notANumber | zero.notANumber | finite.notANumber =>
    exact absurd hnv.symm Bool.false_ne_true
  case finite.finite => exact compare_finite hm hm' hu hv
  case zero.zero => exact heq 0
  -- in all other cases the signs decide, or that one of the doubles is infinite
  case infinity.infinity =>
    cases s <;> cases t <;> simp only [unitsOf, apply_positive, apply_negative]
    exacts [heq _, hlt (by omega), hgt (by omega), heq _]
  case infinity.zero =>
    cases s <;> simp only [unitsOf, apply_positive, apply_negative]
    exacts [hlt (by omega), hgt (by omega)]
  case zero.infinity =>
    cases t <;> simp only [unitsOf, apply_positive, apply_negative]
    exacts [hgt (by omega), hlt (by omega)]
  case finite.zero =>
    have hpos := size_pos hm e
    cases s <;> simp only [unitsOf, apply_positive, apply_negative]
    exacts [hlt (by omega), hgt (by omega)]
  case zero.finite =>
    have hpos := size_pos hm' e'
    cases t <;> simp only [unitsOf, apply_positive, apply_negative]
    exacts [hgt (by omega), hlt (by omega)]
  case infinity.finite =>
    have hbound := Stored.size_lt_top hv
    cases s <;> cases t <;> simp only [unitsOf, apply_positive, apply_negative]
    exacts [hlt (by omega), hlt (by omega), hgt (by omega), hgt (by omega)]
  case finite.infinity =>
    have hbound := Stored.size_lt_top hu
    cases s <;> cases t <;> simp only [unitsOf, apply_positive, apply_negative]
    exacts [hgt (by omega), hlt (by omega), hgt (by omega), hlt (by omega)]

/-! ## Bits -/

section Bits

open Float.Model.UnpackedFloat

theorem bias_eq : Format.binary64.exponentBias = 1023 := rfl

theorem mantissaBits_eq : Format.binary64.mantissaBits = 53 := rfl

/-- The leading bit of a significand is not stored. -/
theorem toNat_implicit (b : BitVec 52) : (1#1 ++ b).toNat = 2 ^ 52 + b.toNat := by
  rw [BitVec.toNat_append, ← Nat.shiftLeft_add_eq_or_of_lt b.isLt, Nat.shiftLeft_eq]
  rfl

/-- Whatever the bits are, what is read from them is stored. -/
theorem isStored_unpack (b : BitVec Format.binary64.numBits) : IsStored (unpack .binary64 b) := by
  have hmantissa : (unpackMantissa b).toNat < 2 ^ 52 := BitVec.isLt _
  have hexponent : (unpackExponent b).toNat < 2 ^ 11 := BitVec.isLt _
  unfold unpack
  simp only [bias_eq]
  split
  · split <;> trivial
  · next hinf =>
    have hne : (unpackExponent b).toNat ≠ 2047 := fun h => hinf (BitVec.eq_of_toNat_eq h)
    split
    · next hzero =>
      split
      · trivial
      · rw [hzero]
        exact ⟨by omega, by decide, by decide, .inr (by decide)⟩
    · next hzero =>
      have hne' : (unpackExponent b).toNat ≠ 0 := fun h => hzero (BitVec.eq_of_toNat_eq h)
      have himplicit := toNat_implicit (unpackMantissa b)
      exact ⟨by omega, by omega, by omega, .inl (by omega)⟩

section Components

variable (s : Sign) (m : BitVec 52)

theorem unpack_packedInfinity : unpack .binary64 (packedInfinity .binary64 s) = .infinity s := by
  cases s <;> rfl

theorem finite_congr {m m' : Nat} {e e' : Int} {hm : 0 < m} (h : m = m') (h' : e = e') :
    UnpackedFloat.finite s m e hm = .finite s m' e' (h ▸ hm) := by
  subst h h'
  rfl

/-- Bits with the smallest exponent are a significand that may lack its leading bit. -/
theorem unpack_subnormal (hm : 0 < m.toNat) :
    unpack .binary64 (packComponents .binary64 s 0#11 m) = .finite s m.toNat (-1074) hm := by
  have hne : m ≠ 0#52 := fun h => absurd (congrArg BitVec.toNat h) (by simpa using hm.ne')
  unfold unpack
  simp only [unpackMantissa_packComponents, unpackExponent_packComponents,
    unpackSign_packComponents, Sign.ofBitVec_toBitVec]
  rw [if_neg (by decide), if_pos trivial, dif_neg hne]
  rfl

/-- Bits with another exponent are a significand with all its bits. -/
theorem unpack_normal {x : Nat} (hlow : 0 < x) (hhigh : x < 2047) :
    unpack .binary64 (packComponents .binary64 s (BitVec.ofNat 11 x) m) =
      .finite s (2 ^ 52 + m.toNat) (x - 1075) (by omega) := by
  have hx : (BitVec.ofNat 11 x).toNat = x := Nat.mod_eq_of_lt (by omega)
  have hinf : BitVec.ofNat 11 x ≠ -1#11 := fun h => by
    have := congrArg BitVec.toNat h
    rw [hx] at this
    exact absurd this (by simp; omega)
  have hzero : BitVec.ofNat 11 x ≠ 0#11 := fun h => by
    have := congrArg BitVec.toNat h
    rw [hx] at this
    exact absurd this (by simp; omega)
  unfold unpack
  simp only [unpackMantissa_packComponents, unpackExponent_packComponents,
    unpackSign_packComponents, Sign.ofBitVec_toBitVec]
  rw [if_neg hinf, if_neg hzero]
  refine finite_congr s (toNat_implicit m) ?_
  rw [hx, bias_eq]
  omega

end Components

/-- What is packed is read back, unless its exponent is too large for a double. -/
theorem unpack_pack {s : Sign} {m : Nat} {e : Int} (hm : 0 < m) (hlt : m < 2 ^ 53)
    (hlow : -1074 ≤ e) (hfull : 2 ^ 52 ≤ m ∨ e = -1074) :
    unpack .binary64 (pack .binary64 (.finite s m e hm)) =
      if e ≤ 971 then .finite s m e hm else .infinity s := by
  have hlog : m.log2 + 1 = 53 ↔ 2 ^ 52 ≤ m := by
    have hle := Nat.le_log2 (n := m) (k := 52) (by omega)
    have hlt' := Nat.log2_lt (n := m) (k := 53) (by omega)
    omega
  have hexp : (e + (1023 : Nat) + (52 : Nat)).toNat = (e + 1075).toNat := by omega
  unfold pack
  simp only [bias_eq, hexp, mantissaBits_eq]
  by_cases hlarge : e ≤ 971
  · rw [if_neg (by omega), if_pos hlarge]
    by_cases hbits : 2 ^ 52 ≤ m
    · have hmod : (BitVec.ofNat 52 m).toNat = m - 2 ^ 52 := by
        rw [BitVec.toNat_ofNat]
        omega
      rw [if_pos (hlog.mpr hbits), unpack_normal _ _ (by omega) (by omega)]
      exact finite_congr s (by omega) (by omega)
    · have hmod : (BitVec.ofNat 52 m).toNat = m := Nat.mod_eq_of_lt (by omega)
      obtain rfl : e = -1074 := hfull.resolve_left hbits
      rw [if_neg (mt hlog.mp hbits), unpack_subnormal _ _ (hmod.symm ▸ hm)]
      exact finite_congr s hmod rfl
  · rw [if_pos (by omega), if_neg hlarge, unpack_packedInfinity]

end Bits

/-! ## Doubles -/

theorem isStored (x : Float) : IsStored x.toModel.unpack := isStored_unpack _

/-- What is no number compares with nothing. -/
theorem compare_isNaN {u v : UnpackedFloat} (h : u.isNaN = true ∨ v.isNaN = true) :
    u.compare v = none := by
  rcases h with h | h
  · cases u with
    | notANumber => rfl
    | _ => exact absurd h Bool.false_ne_true
  · cases v with
    | notANumber => cases u <;> rfl
    | _ => exact absurd h Bool.false_ne_true

/-- A comparison of doubles is one on the scale, if both are numbers. -/
theorem compare_iff {a b : Float} (test : Ordering → Bool) :
    (a.toModel.unpack.compare b.toModel.unpack).any test = true ↔
      a.isNaN = false ∧ b.isNaN = false ∧ test (compare (units a) (units b)) = true := by
  by_cases ha : a.isNaN = true
  · rw [compare_isNaN (.inl ha)]
    exact ⟨fun h => absurd h Bool.false_ne_true,
      fun h => absurd (h.1.symm.trans ha) Bool.false_ne_true⟩
  · by_cases hb : b.isNaN = true
    · rw [compare_isNaN (.inr hb)]
      exact ⟨fun h => absurd h Bool.false_ne_true,
        fun h => absurd (h.2.1.symm.trans hb) Bool.false_ne_true⟩
    · rw [Bool.not_eq_true] at ha hb
      rw [compare_eq (isStored a) (isStored b) ha hb, Option.any_some]
      exact ⟨fun h => ⟨ha, hb, h⟩, fun h => h.2.2⟩

/-- Doubles are compared on the scale. -/
theorem le_iff {a b : Float} :
    a ≤ b ↔ a.isNaN = false ∧ b.isNaN = false ∧ units a ≤ units b := by
  have hle : a ≤ b ↔ (a.toModel.unpack.compare b.toModel.unpack).any Ordering.isLE = true :=
    decide_eq_true_iff
  rw [hle, compare_iff, ← Ordering.ne_gt_iff_isLE, ← ne_eq, compare_le_iff_le]

theorem lt_iff {a b : Float} :
    a < b ↔ a.isNaN = false ∧ b.isNaN = false ∧ units a < units b := by
  have hlt : a < b ↔ (a.toModel.unpack.compare b.toModel.unpack).any (· == .lt) = true := by
    refine decide_eq_true_iff.trans
      (?_ : (a.toModel.unpack.compare b.toModel.unpack == _) = true ↔ _)
    cases a.toModel.unpack.compare b.toModel.unpack <;> rfl
  rw [hlt, compare_iff, beq_iff_eq, compare_lt_iff_lt]

theorem beq_iff {a b : Float} :
    (a == b) = true ↔ a.isNaN = false ∧ b.isNaN = false ∧ units a = units b := by
  have hbeq : (a == b) = true ↔
      (a.toModel.unpack.compare b.toModel.unpack).any (· == .eq) = true := by
    change (a.toModel.unpack.compare b.toModel.unpack == _) = true ↔ _
    cases a.toModel.unpack.compare b.toModel.unpack <;> rfl
  rw [hbeq, compare_iff, beq_iff_eq, compare_eq_iff_eq]

end BlockArm.Number
