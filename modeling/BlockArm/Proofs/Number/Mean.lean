/-
# The middle of two doubles

The middle of two doubles is half of their sum.  Both steps are rounded, but neither passes one of
the doubles, so that the middle lies between them, unless the sum is too large for a double.

* `Rounds.two_mul_le`, `Rounds.le_two_mul`: a sum does not pass the double of a term;
* `rounds_div`: a quotient does not pass a double;
* `mean_between`: the middle of finite doubles;
* `exists_mean_infinity`: the middle if their sum is not finite.
-/
import BlockArm.Proofs.Number.Length

namespace BlockArm.Number

open Float.Model (UnpackedFloat Format)
open Float.Model.UnpackedFloat

variable {a b : Float}

/-! ## The double of a double -/

theorem Short.two_mul {n : Nat} (h : Short n) : Short (2 * n) := by
  intro i
  cases i with
  | zero => exact .inl (one_dvd _)
  | succ i =>
    rcases h i with hdvd | hlt
    · exact .inl (by rw [Nat.pow_succ, Nat.mul_comm]; exact Nat.mul_dvd_mul_left 2 hdvd)
    · exact .inr (by rw [← Nat.add_assoc, Nat.pow_succ]; omega)

theorem onScale_top : OnScale top := ⟨short_top, le_rfl⟩

/-- Twice a double is on the scale, or beyond the largest double. -/
theorem OnScale.two_mul {c : Int} (h : OnScale c) (htop : (2 * c).natAbs ≤ top) :
    OnScale (2 * c) where
  short := by
    rw [Int.natAbs_mul]
    exact h.short.two_mul
  le_top := htop

/-- What is finite after rounding has not passed the double of a double from above. -/
theorem Rounds.two_mul_le {x c : Int} {u : UnpackedFloat} (h : Rounds x 1 u) (hc : OnScale c)
    (hle : 2 * c ≤ x) (hfinite : (unitsOf (unpack .binary64 (pack .binary64 u))).natAbs < top) :
    2 * c ≤ unitsOf (unpack .binary64 (pack .binary64 u)) := by
  by_cases htop : (2 * c).natAbs ≤ top
  · exact h.below _ (hc.two_mul htop) (by rwa [Nat.cast_one, mul_one])
  · rcases le_or_gt 0 c with hpos | hneg
    · have hlarge := h.below top onScale_top (by rw [Nat.cast_one, mul_one]; omega)
      omega
    · omega

/-- And not from below. -/
theorem Rounds.le_two_mul {x c : Int} {u : UnpackedFloat} (h : Rounds x 1 u) (hc : OnScale c)
    (hle : x ≤ 2 * c) (hfinite : (unitsOf (unpack .binary64 (pack .binary64 u))).natAbs < top) :
    unitsOf (unpack .binary64 (pack .binary64 u)) ≤ 2 * c := by
  by_cases htop : (2 * c).natAbs ≤ top
  · exact h.above _ (hc.two_mul htop) (by rwa [Nat.cast_one, mul_one])
  · rcases le_or_gt 0 c with hpos | hneg
    · omega
    · have hsmall := h.above (-top) onScale_top.neg (by rw [Nat.cast_one, mul_one]; omega)
      omega

/-! ## Halves -/

/-- Middles are taken with this divisor. -/
def two : Divisor 2 2 where
  shift := 51
  low := by decide
  high := by decide
  read := rfl

/-- A finite double divided by a whole number does not pass a double. -/
theorem rounds_div {x y : Float} {d : Nat} (hx : x.isFinite = true) (q : Divisor y d) :
    Rounds (units x) d (x / y).toModel.unpack := by
  obtain ⟨s, n, m, e, hunits, -, hrounded, hread⟩ := exists_rounded_div hx q
  rw [hunits, hread]
  exact rounds_of_rounded s hrounded q.pos

/-- Rounding does not change a double. -/
theorem unpack_pack_unpack {x : Float} (hx : x.isNaN = false) :
    unpack .binary64 (pack .binary64 x.toModel.unpack) = x.toModel.unpack :=
  unpack_pack_of_isStored (isStored x) hx

/-- Half of a finite double is a number. -/
theorem isNaN_div_two {x : Float} (hx : x.isFinite = true) : (x / 2).isNaN = false :=
  isNaN_of_unpack (rounds_div hx two).number

/-- An infinity is its own half. -/
theorem unpack_div_two {x : Float} {s : Sign} (hx : x.toModel.unpack = .infinity s) :
    (x / 2).toModel.unpack = .infinity s := by
  rw [unpack_div, hx]
  cases s <;> rfl

/-! ## The middle -/

/-- **The middle of two doubles** lies between them, if their sum is finite. -/
theorem mean_between (h : a ≤ b) (hfinite : (a + b).isFinite = true) :
    a ≤ (a + b) / 2 ∧ (a + b) / 2 ≤ b := by
  obtain ⟨ha, hb, hle⟩ := le_iff.mp h
  obtain ⟨hfa, hfb⟩ := isFinite_add hfinite
  have hsum : Rounds (units a + units b) 1 _ := rounds_add (isStored a) (isStored b) hfa hfb
  have hbound : (unitsOf (unpack .binary64 (pack .binary64
      (UnpackedFloat.add .binary64 a.toModel.unpack b.toModel.unpack)))).natAbs < top :=
    (isFinite_iff.mp hfinite).2
  have hlow : 2 * units a ≤ units (a + b) :=
    hsum.two_mul_le (onScale_unitsOf (isStored a)) (by omega) hbound
  have hhigh : units (a + b) ≤ 2 * units b :=
    hsum.le_two_mul (onScale_unitsOf (isStored b)) (by omega) hbound
  have hhalf := rounds_div hfinite two
  have hnumber := isNaN_div_two hfinite
  have hbelow := hhalf.below _ (onScale_unitsOf (isStored a))
    (show unitsOf a.toModel.unpack * (2 : Nat) ≤ _ by rw [mul_comm]; exact hlow)
  have habove := hhalf.above _ (onScale_unitsOf (isStored b))
    (show _ ≤ unitsOf b.toModel.unpack * (2 : Nat) by rw [mul_comm]; exact hhigh)
  rw [unpack_pack_unpack hnumber] at hbelow habove
  exact ⟨le_iff.mpr ⟨ha, hnumber, hbelow⟩, le_iff.mpr ⟨hnumber, hb, habove⟩⟩

/-- The middle is an infinity if the sum is one. -/
theorem exists_mean_infinity (hnumber : ((a + b) / 2).isNaN = false)
    (hfinite : (a + b).isFinite = false) :
    ∃ s, (a + b).toModel.unpack = .infinity s ∧ ((a + b) / 2).toModel.unpack = .infinity s := by
  have hsum : (a + b).isNaN = false := by
    by_contra hnan
    have hhalf : ((a + b) / 2).toModel.unpack = .notANumber := by
      rw [unpack_div, eq_notANumber (u := (a + b).toModel.unpack) hnan]
      rfl
    exact absurd ((congrArg UnpackedFloat.isNaN hhalf).symm.trans hnumber).symm Bool.false_ne_true
  obtain ⟨s, hs⟩ := exists_infinity hsum hfinite
  exact ⟨s, hs, unpack_div_two hs⟩

end BlockArm.Number
