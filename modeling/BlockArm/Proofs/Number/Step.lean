/-
# Steps of a double

A double that is increased again and again by the same step gets ahead only as long as the step is
not lost in rounding.  Where it does get ahead, it moves by half a step at least and by two at most,
so that it cannot be too large for its step.

* `OnScale.exists_next`: how far the next double is;
* `natAbs_add_sub_le`, `natAbs_sub_sub_le`: a step leads no farther than two steps would;
* `isFinite_of_near`: what is not far from a finite double is finite;
* `units_add_le`, `units_le_two_mul_sub`: how far a step up leads;
* `natAbs_units_add_lt`: where a step leads anywhere;
* `units_lt_add`: small doubles get ahead by steps of one or more.
-/
import BlockArm.Proofs.Number.Length

namespace BlockArm.Number

open Float.Model (UnpackedFloat Format)
open Float.Model.UnpackedFloat

/-! ## The next double -/

/-- Where the last bit of a size with 53 significant bits would be. -/
theorem exists_lastBit (n : Nat) : ∃ i, n < 2 ^ (53 + i) ∧ (i = 0 ∨ 2 ^ (52 + i) ≤ n) := by
  by_cases hsmall : n < 2 ^ 53
  · exact ⟨0, hsmall, .inl rfl⟩
  · have hlog : 53 ≤ n.log2 := (Nat.le_log2 (by omega)).mpr (by omega)
    obtain ⟨i, hi⟩ := Nat.exists_eq_add_of_le hlog
    have hlow := Nat.log2_self_le (n := n) (by omega)
    have hhigh : n < 2 ^ (n.log2 + 1) := Nat.lt_log2_self
    rw [hi] at hlow hhigh
    exact ⟨i + 1, by rwa [← Nat.add_assoc], .inr (by rwa [show 52 + (i + 1) = 53 + i by omega])⟩

theorem short_mul_two_pow {k : Nat} (hk : k ≤ 2 ^ 53) (i : Nat) : Short (k * 2 ^ i) := by
  intro j
  rcases le_or_gt j i with hle | hgt
  · exact .inl (Dvd.dvd.mul_left (Nat.pow_dvd_pow 2 hle) k)
  · rcases hk.eq_or_lt with rfl | hlt
    · rw [← Nat.pow_add]
      rcases le_or_gt j (53 + i) with hle | hgt'
      · exact .inl (Nat.pow_dvd_pow 2 hle)
      · exact .inr (Nat.pow_lt_pow_right (by decide) (by omega))
    · refine .inr ((Nat.mul_lt_mul_of_pos_right hlt (Nat.two_pow_pos i)).trans_le ?_)
      rw [← Nat.pow_add]
      exact Nat.pow_le_pow_right (by decide) (by omega)

/-- A short value is a multiple of its last bit, and so it may be changed by one such bit. -/
theorem Short.exists_lastBit {n : Nat} (h : Short n) :
    ∃ i, n < 2 ^ (53 + i) ∧ (i = 0 ∨ 2 ^ (52 + i) ≤ n) ∧ Short (n + 2 ^ i) ∧
      Short (n - 2 ^ i) := by
  obtain ⟨i, hhigh, hlow⟩ := Number.exists_lastBit n
  have hdvd : 2 ^ i ∣ n := by
    rcases hlow with rfl | hlow
    · exact one_dvd n
    · exact (h i).resolve_right (by omega)
  obtain ⟨k, rfl⟩ := hdvd
  have hk : k < 2 ^ 53 := by
    rw [Nat.pow_add, Nat.mul_comm (2 ^ 53)] at hhigh
    exact Nat.lt_of_mul_lt_mul_left hhigh
  refine ⟨i, hhigh, hlow, ?_, ?_⟩
  · have hmore : 2 ^ i * k + 2 ^ i = (k + 1) * 2 ^ i := by ring
    rw [hmore]
    exact short_mul_two_pow hk i
  · have hless : 2 ^ i * k - 2 ^ i = (k - 1) * 2 ^ i := by rw [Nat.sub_mul, Nat.mul_comm, Nat.one_mul]
    rw [hless]
    exact short_mul_two_pow (by omega) i

/-- Above a double there is another one, or an infinity, that is at most twice as far away as a double
below it.  A double is not too large for this distance. -/
theorem OnScale.exists_next {a b : Int} (ha : OnScale a) (hb : OnScale b) (hlt : a < b)
    (htop : b < top) :
    ∃ g : Int, OnScale (b + g) ∧ 0 < g ∧ g ≤ 2 * (b - a) ∧ b.natAbs < 2 ^ 53 * g := by
  obtain ⟨i, hhigh, hlow, hmore, hless⟩ := hb.short.exists_lastBit
  have hbit := Nat.two_pow_pos i
  have hhigh' : b.natAbs < 2 ^ 53 * 2 ^ i := by rwa [← Nat.pow_add]
  have hlow' : i = 0 ∨ 2 ^ 52 * 2 ^ i ≤ b.natAbs := by rwa [← Nat.pow_add]
  refine ⟨(2 ^ i : Nat), ?_, by omega, ?_, by omega⟩
  · rcases le_or_gt 0 b with hpos | hneg
    · have habs : (b + (2 ^ i : Nat)).natAbs = b.natAbs + 2 ^ i := by omega
      refine ⟨habs ▸ hmore, ?_⟩
      rcases hlow with rfl | hlow
      · omega
      · have hgap := hb.short.gap short_top (i := i) (by omega) (by omega)
        omega
    · have habs : (b + (2 ^ i : Nat)).natAbs = b.natAbs - 2 ^ i := by
        rcases hlow' with rfl | hlow' <;> omega
      have hle := hb.le_top
      exact ⟨habs ▸ hless, by omega⟩
  · cases i with
    | zero =>
      rw [Nat.pow_zero]
      omega
    | succ j =>
      have hlow := hlow.resolve_left (by omega)
      have hhalf : 2 ^ (52 + (j + 1)) = 2 * 2 ^ (52 + j) := by ring
      have hbit' : 2 ^ (j + 1) = 2 * 2 ^ j := by ring
      have hwide : 2 ^ j ≤ 2 ^ (52 + j) := Nat.pow_le_pow_right (by decide) (by omega)
      rcases le_or_gt 0 b with hpos | hneg
      · rcases le_or_gt 0 a with hpos' | hneg'
        · -- below a power of two, doubles are half as far apart
          have hgap := ha.short.gap hb.short (i := j) (by omega) (by omega)
          omega
        · omega
      · have hgap := hb.short.gap ha.short (i := j + 1) (by omega) (by omega)
        omega

/-! ## Where a step leads -/

section Steps

variable {a s : Float} (ha : a.isFinite = true) (hs : s.isFinite = true)

include ha hs

/-- No double is closer to the exact sum than the one that a step leads to. -/
theorem closest_add {c : Int} (hc : OnScale c) :
    (units (a + s) - (units a + units s)).natAbs ≤ (c - (units a + units s)).natAbs := by
  have hclosest := (rounds_add (isStored a) (isStored s) ha hs).closest c hc
  rw [Nat.cast_one, mul_one, mul_one] at hclosest
  exact hclosest

/-- A step leads no farther than two steps would. -/
theorem natAbs_add_sub_le : (units (a + s) - units a).natAbs ≤ 2 * (units s).natAbs := by
  have hclosest := closest_add ha hs (onScale_unitsOf (isStored a))
  have hstay : (units a - (units a + units s)).natAbs ≤ (units s).natAbs := by omega
  have hle := hclosest.trans hstay
  omega

/-- Nor does a step back. -/
theorem natAbs_sub_sub_le : (units (a - s) - units a).natAbs ≤ 2 * (units s).natAbs := by
  have hclosest := (rounds_sub ha hs).closest _ (onScale_unitsOf (isStored a))
  rw [← unpack_sub, Nat.cast_one, mul_one, mul_one] at hclosest
  change (units (a - s) - _).natAbs ≤ (units a - _).natAbs at hclosest
  omega

/-- A step upwards leads no farther than two steps would. -/
theorem units_add_le (hpos : 0 ≤ units s) : units (a + s) ≤ units a + 2 * units s := by
  have hclosest := closest_add ha hs (onScale_unitsOf (isStored a))
  have hstay : (units a - (units a + units s)).natAbs ≤ (units s).natAbs := by omega
  have hle := hclosest.trans hstay
  omega

variable (hahead : units a < units (a + s)) (htop : units (a + s) < top)

include hahead htop

/-- A step that leads anywhere leads half a step ahead at least. -/
theorem units_le_two_mul_sub : units s ≤ 2 * (units (a + s) - units a) := by
  obtain ⟨g, hnext, hpos, hgap, -⟩ := (onScale_unitsOf (isStored a)).exists_next
    (onScale_unitsOf (isStored (a + s))) hahead htop
  -- otherwise the next double would be closer
  have hclosest := closest_add ha hs hnext
  change (units (a + s) - (units a + units s)).natAbs ≤
    (units (a + s) + g - (units a + units s)).natAbs at hclosest
  change g ≤ 2 * (units (a + s) - units a) at hgap
  omega

/-- Where a step leads anywhere, doubles are not too large for it. -/
theorem natAbs_units_add_lt (hpos : 0 ≤ units s) :
    ((units (a + s)).natAbs : Int) < 2 ^ 55 * units s := by
  obtain ⟨g, -, -, hgap, hlarge⟩ := (onScale_unitsOf (isStored a)).exists_next
    (onScale_unitsOf (isStored (a + s))) hahead htop
  have hfar := units_add_le ha hs hpos
  change g ≤ 2 * (units (a + s) - units a) at hgap
  change ((units (a + s)).natAbs : Int) < _ at hlarge
  omega

end Steps

/-- The infinities are as far beyond the largest doubles as these are from the next smaller ones. -/
theorem Stored.size_add_le_top {m : Nat} {e : Int} (h : Stored m e) :
    size m e + size 1 971 ≤ top := by
  have hm : m ≤ 2 ^ 53 - 1 := Nat.le_sub_one_of_lt h.lt
  have he : (e + 1074).toNat ≤ (971 + 1074 : Int).toNat := by
    have hhigh := h.high
    omega
  have hlast : size 1 e ≤ size 1 971 :=
    Nat.mul_le_mul_left 1 (Nat.pow_le_pow_right (by decide) he)
  have hlargest : (2 ^ 53 - 1) * size 1 971 + size 1 971 = top := by decide +kernel
  rw [size_eq_mul m e, ← hlargest]
  exact Nat.add_le_add_right (Nat.mul_le_mul hm hlast) _

/-- What is not far from a finite double is finite. -/
theorem isFinite_of_near {x y : Float} (hx : x.isFinite = true) (hy : y.isNaN = false)
    (h : (units y - units x).natAbs < size 1 971) : y.isFinite = true := by
  have hroom : (units x).natAbs + size 1 971 ≤ top := by
    have hstored := isStored x
    have hfinite : x.toModel.unpack.isFinite = true := hx
    show (unitsOf x.toModel.unpack).natAbs + _ ≤ _
    cases hu : x.toModel.unpack with
    | zero s => exact (by decide +kernel : 0 + size 1 971 ≤ top)
    | finite s m e hm =>
      rw [hu] at hstored
      exact (natAbs_apply s (size m e)).symm ▸ Stored.size_add_le_top hstored
    | notANumber | infinity =>
      rw [hu] at hfinite
      exact absurd hfinite Bool.false_ne_true
  exact isFinite_iff.mpr ⟨hy, by omega⟩

/-- A double of less than 53 bits before the point gets ahead by steps of one or more. -/
theorem units_lt_add {a s : Float} (ha : a.isFinite = true) (hs : s.isFinite = true)
    (hsmall : (units a).natAbs < 2 ^ 53 * unity) (hone : unity ≤ units s) :
    units a < units (a + s) := by
  have hpos : (0 : Int) < unity := by exact_mod_cast unity_pos
  have hlow := Int.ediv_mul_le (units a) hpos.ne'
  have hhigh := Int.lt_ediv_add_one_mul_self (units a) hpos
  generalize units a / (unity : Int) = k at hlow hhigh
  have hk : -2 ^ 53 ≤ k ∧ k < 2 ^ 53 := by
    constructor
    · exact Int.le_of_lt_add_one (lt_of_mul_lt_mul_right (a := (unity : Int)) (by omega) hpos.le)
    · exact lt_of_mul_lt_mul_right (a := (unity : Int)) (by omega) hpos.le
  -- the next whole number is a double, and the sum does not pass it
  have hwhole : OnScale ((k + 1) * unity) :=
    onScale_mul_size (by omega) (by decide) (by decide)
  rw [add_mul, one_mul] at hhigh hwhole
  have hbelow := (rounds_add (isStored a) (isStored s) ha hs).below _ hwhole (by
    rw [Nat.cast_one, mul_one]
    change _ ≤ units a + units s
    omega)
  exact hhigh.trans_le hbelow

end BlockArm.Number
