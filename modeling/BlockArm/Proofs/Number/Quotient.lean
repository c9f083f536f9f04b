/-
# Quarter turns

An angle is divided by ninety in double precision and rounded to a whole number then.  That is
rounded twice, but comes to the same as rounding once: a quotient that is no half is not rounded to
a half, since the doubles around a multiple of forty-five lie too far apart for that.

* `Rounded.size_lt`: a quotient below a double is rounded to less than this;
* `Divisor`: a double that is a whole number to divide by;
* `exists_rounded_div`: what a double divided by a whole number is;
* `wholeQuotient`: the whole number nearest to a quotient, a half going away from zero;
* `toInt_nearestInt32_div`: the quarter turns of an angle.
-/
import BlockArm.Proofs.Number.Rounding

namespace BlockArm.Number

open Float.Model (UnpackedFloat Format totalExponent)
open Float.Model.UnpackedFloat

/-! ## Doubles around a double -/

/-- Between short values, of which the larger is no power of two, there is room for the last bit of
the larger one. -/
theorem Short.gap {n a i : Nat} (hn : Short n) (ha : Short a) (hlow : 2 ^ (52 + i) < a)
    (hlt : n < a) : n + 2 ^ i ≤ a := by
  have hdvd : 2 ^ i ∣ a := (ha i).resolve_right (by omega)
  -- the smaller value is a multiple of this bit, or else it is below the power of two
  obtain ⟨b, hb, hnb, hba⟩ : ∃ b, 2 ^ i ∣ b ∧ n ≤ b ∧ b < a := by
    rcases hn i with hdvd' | hlt'
    · exact ⟨n, hdvd', le_rfl, hlt⟩
    · exact ⟨2 ^ (52 + i), Nat.pow_dvd_pow 2 (by omega), hlt'.le, hlow⟩
  obtain ⟨k, rfl⟩ := hdvd
  obtain ⟨j, rfl⟩ := hb
  have hjk : j + 1 ≤ k := Nat.lt_of_mul_lt_mul_left hba
  calc n + 2 ^ i ≤ 2 ^ i * j + 2 ^ i := Nat.add_le_add_right hnb _
    _ = 2 ^ i * (j + 1) := by ring
    _ ≤ 2 ^ i * k := Nat.mul_le_mul_left _ hjk

/-- A quotient below a value is rounded to less than this, if their multiples by the divisor are
short and the one of the value is no power of two. -/
theorem Rounded.size_lt {n d m c : Nat} {e : Int} (h : Rounded n d m e) (hn : Short n)
    (hshort : Short (c * d)) (hpower : ∀ k, c * d ≠ 2 ^ k) (hc : 2 ^ 52 ≤ c) (hd : 0 < d)
    (hlt : n < c * d) : size m e < c := by
  by_contra hge
  push Not at hge
  have hhigh := h.nearest.high
  have hbit : 2 ^ 52 * 2 ^ (e + 1074).toNat ≤ size m e := by
    rcases h.full with hfull | rfl
    · exact Nat.mul_le_mul_right _ hfull
    · simpa using hc.trans hge
  have hsize : size m e = m * 2 ^ (e + 1074).toNat := rfl
  generalize 2 ^ (e + 1074).toNat = bit at hhigh hbit hsize
  -- the rounding error is at most the 2⁵³th part of the value
  have herror : 2 ^ 53 * (c * d) ≤ 2 ^ 53 * n + c * d := by
    have hmul : c * d ≤ size m e * d := Nat.mul_le_mul_right d hge
    have hbit' : 2 ^ 52 * bit * d ≤ size m e * d := Nat.mul_le_mul_right d hbit
    have hhigh' : 2 * (size m e * d) ≤ 2 * n + d * bit := by
      calc 2 * (size m e * d) = 2 * m * (d * bit) := by rw [hsize]; ring
        _ ≤ 2 * n + d * bit := hhigh
    have hcomm : d * bit * 2 ^ 52 = 2 ^ 52 * bit * d := by ring
    omega
  have hne : c * d ≠ 0 := by omega
  have hlog := (Nat.le_log2 hne).mpr (hc.trans (Nat.le_mul_of_pos_right c hd))
  obtain ⟨i, hi⟩ := Nat.exists_eq_add_of_le hlog
  have hself := Nat.log2_self_le hne
  have hupper : c * d < 2 ^ ((c * d).log2 + 1) := Nat.lt_log2_self
  rw [hi] at hself hupper
  have hgap := hn.gap hshort (lt_of_le_of_ne hself (hpower _).symm) hlt
  have htwo : 2 ^ (52 + i + 1) = 2 ^ 53 * 2 ^ i := by ring
  omega

/-! ## Division by whole numbers -/

/-- Both terms of a rounded quotient may be divided. -/
theorem Rounded.of_mul_right {n d m k : Nat} {e : Int} (h : Rounded (n * k) (d * k) m e)
    (hk : 0 < k) : Rounded n d m e where
  lt := h.lt
  low := h.low
  full := h.full
  faithful :=
    { below := fun c hc hle => h.faithful.below c hc (by
        rw [← Nat.mul_assoc]
        exact Nat.mul_le_mul_right k hle)
      above := fun c hc hle => h.faithful.above c hc (by
        rw [← Nat.mul_assoc]
        exact Nat.mul_le_mul_right k hle) }
  closest := fun c hc => by
    have hscaled := h.closest c hc
    have hfactor : ∀ r : Nat, (r * (d * k : Nat) - (n * k : Nat) : Int) = (r * d - n) * k :=
      fun r => by
        push_cast
        ring
    rw [hfactor, hfactor, Int.natAbs_mul, Int.natAbs_mul] at hscaled
    exact Nat.le_of_mul_le_mul_right hscaled hk
  nearest :=
    { low := by
        refine Nat.le_of_mul_le_mul_right ?_ hk
        linarith [h.nearest.low]
      high := by
        refine Nat.le_of_mul_le_mul_right ?_ hk
        linarith [h.nearest.high] }

/-- Nothing is rounded to nothing. -/
theorem rounded_zero {d : Nat} (hd : 0 < d) : Rounded 0 d 0 (-1074) where
  lt := by decide
  low := le_rfl
  full := .inr rfl
  faithful :=
    { below := fun c _ hle => by
        have hzero := Nat.eq_zero_of_le_zero hle
        rw [(Nat.mul_eq_zero.mp hzero).resolve_right hd.ne']
        exact Nat.zero_le _
      above := fun c _ _ => (Nat.zero_mul _).trans_le (Nat.zero_le c) }
  closest := fun c _ => by
    rw [size, Nat.zero_mul, Nat.cast_zero, zero_mul, Int.sub_zero]
    exact Nat.zero_le _
  nearest := ⟨Nat.zero_le _, by rw [Nat.mul_zero, Nat.zero_mul]; exact Nat.zero_le _⟩

/-- A double that stands for a positive whole number, with all bits of its significand in use. -/
structure Divisor (y : Float) (d : Nat) where
  shift : Nat
  low : 2 ^ 52 ≤ d * 2 ^ shift
  high : d * 2 ^ shift < 2 ^ 53
  read : y.toModel.unpack = .finite .positive (d * 2 ^ shift) (-shift) (by omega)

/-- Quarter turns are counted with this divisor. -/
def ninety : Divisor 90 90 where
  shift := 46
  low := by decide
  high := by decide
  read := rfl

theorem Divisor.pos {y : Float} {d : Nat} (q : Divisor y d) : 0 < d :=
  Nat.pos_of_mul_pos_right (Nat.lt_of_lt_of_le (Nat.two_pow_pos 52) q.low)

/-- The quotient is computed with enough bits. -/
theorem divCore_eq {m d j : Nat} {e : Int} (hm : 0 < m) (h : Stored m e)
    (hlow : 2 ^ 52 ≤ d * 2 ^ j) (hhigh : d * 2 ^ j < 2 ^ 53) :
    ∃ t : Int, ∃ k : Nat, divCore .binary64 m e (d * 2 ^ j) (-j) =
        (m * 2 ^ k / (d * 2 ^ j), t,
          accuracyOfFraction (m * 2 ^ k % (d * 2 ^ j)) (d * 2 ^ j)) ∧
      -1074 ≤ t ∧ t + k = e + j ∧ (2 ^ 52 ≤ m * 2 ^ k / (d * 2 ^ j) ∨ t = -1074) := by
  generalize d * 2 ^ j = d' at hlow hhigh
  have hlog : m.log2 < 53 := (Nat.log2_lt hm.ne').mpr h.lt
  have hexp := h.low
  have htotal : totalExponent m e - totalExponent d' (-j) = (m.log2 : Int) + e + j - 52 := by
    have hdlog : d'.log2 = 52 := (Nat.log2_eq_iff (by omega)).mpr ⟨hlow, hhigh⟩
    unfold totalExponent
    rw [hdlog]
    omega
  have htarget : Format.binary64.targetExponent ((m.log2 : Int) + e + j - 52) =
      max (m.log2 + e + j - 105) (-1074) := by
    have hmin : Format.binary64.minExponent = -1074 := rfl
    have hbits : (Format.binary64.mantissaBits : Int) = 53 := rfl
    unfold Format.targetExponent
    rw [hmin, hbits]
    omega
  have hmin : min (e - -j) (max ((m.log2 : Int) + e + j - 105) (-1074)) =
      max ((m.log2 : Int) + e + j - 105) (-1074) := by omega
  refine ⟨max ((m.log2 : Int) + e + j - 105) (-1074),
    (e + j - max ((m.log2 : Int) + e + j - 105) (-1074)).toNat, ?_, by omega, by omega, ?_⟩
  · unfold divCore
    rw [htotal, htarget, hmin]
    simp only [Nat.shiftLeft_eq, sub_neg_eq_add]
  · by_cases hfloor : (m.log2 : Int) + e + j - 105 ≤ -1074
    · exact .inr (by omega)
    · refine .inl ((Nat.le_div_iff_mul_le (by omega)).mpr ?_)
      have hk : (e + j - max ((m.log2 : Int) + e + j - 105) (-1074)).toNat = 105 - m.log2 := by
        omega
      rw [hk]
      calc 2 ^ 52 * d' ≤ 2 ^ 105 := by omega
        _ = 2 ^ m.log2 * 2 ^ (105 - m.log2) := by rw [← Nat.pow_add]; congr 1; omega
        _ ≤ m * 2 ^ (105 - m.log2) := Nat.mul_le_mul_right _ (Nat.log2_self_le hm.ne')

/-- A finite double divided by a whole number is the rounded quotient. -/
theorem exists_rounded_div {x y : Float} {d : Nat} (hx : x.isFinite = true) (q : Divisor y d) :
    ∃ s n m e, units x = s.apply n ∧ Short n ∧ Rounded n d m e ∧
      (x / y).toModel.unpack = finiteOrZero s m e := by
  have hd := q.pos
  obtain ⟨j, hlow, hhigh, hread⟩ := q
  have hstored := isStored x
  have hfinite : x.toModel.unpack.isFinite = true := hx
  rw [unpack_div, hread, units]
  rcases hu : x.toModel.unpack with ⟨s⟩ | _ | ⟨s⟩ | ⟨s, m, e, hm⟩ <;> rw [hu] at hstored hfinite
  case infinity | notANumber => exact absurd hfinite Bool.false_ne_true
  case zero =>
    have hsign : s / Sign.positive = s := by cases s <;> rfl
    refine ⟨s, 0, 0, -1074, by cases s <;> rfl, short_zero, rounded_zero hd, ?_⟩
    rw [UnpackedFloat.div, hsign]
    exact unpack_packedZero
  case finite =>
    obtain ⟨t, k, hcore, hbound, hexp, hfull⟩ := divCore_eq hm hstored hlow hhigh
    obtain ⟨m', e', hround, hrounded⟩ :=
      roundWithAccuracy_spec s (m * 2 ^ k) (Nat.mul_pos hd (Nat.two_pow_pos j)) hbound hfull
    have hsign : s / Sign.positive = s := by cases s <;> rfl
    have hsize : size (m * 2 ^ k) t = size m e * 2 ^ j := by
      have hpower : k + (t + 1074).toNat = (e + 1074).toNat + j := by
        have := hstored.low
        omega
      rw [size, size, Nat.mul_assoc, Nat.mul_assoc, ← Nat.pow_add, ← Nat.pow_add, hpower]
    rw [hsize] at hrounded
    have hrounded' := hrounded.of_mul_right (Nat.two_pow_pos j)
    -- a quotient is no larger than its dividend, so that it stays below the infinities
    have hshort := short_size hstored.lt e
    have hle : size m' e' ≤ size m e :=
      hrounded'.faithful.above _ hshort (Nat.le_mul_of_pos_right _ hd)
    have hread : m' = 0 ∨ e' ≤ 971 := by
      by_contra hlarge
      push Not at hlarge
      have hbits : 2 ^ 52 ≤ m' := hrounded'.full.resolve_right (by omega)
      exact absurd (size_lt hstored.lt hstored.low (by have := hstored.high; omega) hbits)
        (Nat.not_lt.mpr hle)
    refine ⟨s, size m e, m', e', rfl, hshort, hrounded', ?_⟩
    rw [UnpackedFloat.div, hcore, hsign]
    dsimp only
    rw [hround, hrounded'.unpack_pack, if_pos hread]

/-! ## Whole numbers -/

/-- A quotient stays nearest to the same number when both terms are multiplied. -/
theorem nearest_mul_right (tie : Tie) (n d : Nat) {k : Nat} (hk : 0 < k) :
    nearest tie (n * k) (d * k) = nearest tie n d := by
  unfold nearest
  rw [Nat.mul_div_mul_right n d hk, Nat.mul_mod_mul_right, ← Nat.mul_assoc]
  simp only [Nat.mul_lt_mul_right hk]

/-- With halves going up, the nearest whole number is a quotient without its fraction. -/
theorem nearest_eq_div (n : Nat) {d : Nat} (hd : 0 < d) :
    nearest .awayFromZero n d = (2 * n + d) / (2 * d) := by
  have hsplit : 2 * n + d = 2 * d * (n / d) + (2 * (n % d) + d) := by
    have hdiv := Nat.div_add_mod n d
    linarith
  have hmod := Nat.mod_lt n hd
  rw [hsplit, Nat.mul_add_div (by omega)]
  unfold nearest
  by_cases hlt : 2 * (n % d) < d
  · have hfraction : (2 * (n % d) + d) / (2 * d) = 0 := Nat.div_eq_of_lt (by omega)
    rw [if_pos hlt, hfraction, Nat.add_zero]
  · have hfraction : (2 * (n % d) + d) / (2 * d) = 1 :=
      Nat.div_eq_of_lt_le (by omega) (by omega)
    rw [if_neg hlt, hfraction]
    split <;> rfl

theorem nearest_eq_iff {n d q : Nat} (hd : 0 < d) : nearest .awayFromZero n d = q ↔
    2 * q * d ≤ 2 * n + d ∧ 2 * n < (2 * q + 1) * d := by
  have hlow : q * (2 * d) = 2 * q * d := by ring
  have hhigh : (2 * q + 1) * d = 2 * q * d + d := by ring
  rw [nearest_eq_div n hd, Nat.div_eq_iff (by omega), hlow, hhigh]
  omega

/-- The whole number nearest to a quotient, a half going away from zero. -/
def wholeQuotient (x : Int) (d : Nat) : Int := x.sign * nearest .awayFromZero x.natAbs d

theorem wholeQuotient_apply (s : Sign) (n : Nat) {d : Nat} (hd : 0 < d) :
    wholeQuotient (s.apply n) d = s.apply (nearest .awayFromZero n d) := by
  rcases Nat.eq_zero_or_pos n with rfl | hn
  · have hzero : nearest .awayFromZero 0 d = 0 := (nearest_eq_iff hd).mpr ⟨by omega, by omega⟩
    rw [hzero]
    cases s <;> simp [wholeQuotient]
  · have hsign : ((n : Int)).sign = 1 := Int.sign_eq_one_of_pos (by omega)
    rw [wholeQuotient, natAbs_apply]
    cases s with
    | positive => rw [apply_positive, apply_positive, hsign, one_mul]
    | negative => rw [apply_negative, apply_negative, Int.sign_neg, hsign, neg_one_mul]

theorem natAbs_wholeQuotient (x : Int) {d : Nat} (hd : 0 < d) :
    (wholeQuotient x d).natAbs = nearest .awayFromZero x.natAbs d := by
  obtain ⟨s, hs⟩ : ∃ s : Sign, s.apply x.natAbs = x := by
    rcases Int.natAbs_eq x with hx | hx
    · exact ⟨.positive, hx.symm⟩
    · exact ⟨.negative, hx.symm⟩
  rw [← natAbs_apply s (nearest .awayFromZero x.natAbs d), ← wholeQuotient_apply s x.natAbs hd, hs]

/-- Which whole number is nearest; a half belongs to the one that is farther from zero. -/
theorem wholeQuotient_eq {x k : Int} {d : Nat} (hd : 0 < d)
    (hpos : 0 ≤ x → (2 * k - 1) * d ≤ 2 * x ∧ 2 * x < (2 * k + 1) * d)
    (hneg : x < 0 → (2 * k - 1) * d < 2 * x ∧ 2 * x ≤ (2 * k + 1) * d) :
    wholeQuotient x d = k := by
  have hd' : (0 : Int) ≤ d := Int.natCast_nonneg d
  rcases le_or_gt 0 x with hx | hx
  · obtain ⟨hlow, hhigh⟩ := hpos hx
    have hk : 0 < 2 * k + 1 := lt_of_mul_lt_mul_right (a := (d : Int)) (by omega) hd'
    obtain ⟨n, rfl⟩ := Int.eq_ofNat_of_zero_le hx
    obtain ⟨q, rfl⟩ := Int.eq_ofNat_of_zero_le (show 0 ≤ k by omega)
    have hlow' : (2 * q * d : Int) ≤ 2 * n + d := by linarith
    have hnearest := (nearest_eq_iff (n := n) (q := q) hd).mpr
      ⟨by exact_mod_cast hlow', by exact_mod_cast hhigh⟩
    exact (wholeQuotient_apply .positive n hd).trans (by rw [hnearest]; rfl)
  · obtain ⟨hlow, hhigh⟩ := hneg hx
    have hk : 2 * k - 1 < 0 := lt_of_mul_lt_mul_right (a := (d : Int)) (by omega) hd'
    obtain ⟨n, hn⟩ := Int.eq_ofNat_of_zero_le (show 0 ≤ -x by omega)
    obtain ⟨q, hq⟩ := Int.eq_ofNat_of_zero_le (show 0 ≤ -k by omega)
    obtain rfl : x = -n := by omega
    obtain rfl : k = -q := by omega
    have hlow' : (2 * q * d : Int) ≤ 2 * n + d := by linarith
    have hhigh' : (2 * n : Int) < (2 * q + 1) * d := by linarith
    have hnearest := (nearest_eq_iff (n := n) (q := q) hd).mpr
      ⟨by exact_mod_cast hlow', by exact_mod_cast hhigh'⟩
    exact (wholeQuotient_apply .negative n hd).trans (by rw [hnearest]; rfl)

/-- The number one in units. -/
def unity : Nat := size 1 0

theorem unity_pos : 0 < unity := size_pos one_pos 0

/-- The whole number nearest to a double, if it has 32 bits. -/
theorem toInt_nearestInt32 {y : Float} {s : Sign} {m : Nat} {e : Int}
    (hread : y.toModel.unpack = finiteOrZero s m e) (he : -1074 ≤ e)
    (hsmall : nearest .awayFromZero (size m e) unity ≤ 2147483647) :
    (nearestInt32 y).toInt = s.apply (nearest .awayFromZero (size m e) unity) := by
  have hscale : nearest .awayFromZero (m * twoTo e.toNat) (twoTo (-e).toNat) =
      nearest .awayFromZero (size m e) unity := by
    have hden : twoTo (-e).toNat * 2 ^ (1074 - (-e).toNat) = unity := by
      have hexp : (-e).toNat + (1074 - (-e).toNat) = ((0 : Int) + 1074).toNat := by omega
      rw [unity, size, one_mul, ← hexp, Nat.pow_add]
      rfl
    have hnum : m * twoTo e.toNat * 2 ^ (1074 - (-e).toNat) = size m e := by
      have hexp : e.toNat + (1074 - (-e).toNat) = (e + 1074).toNat := by omega
      rw [size, ← hexp, Nat.pow_add, ← Nat.mul_assoc]
      rfl
    rw [← nearest_mul_right _ _ _ (Nat.two_pow_pos (1074 - (-e).toNat)), hden, hnum]
  have hread' : nearestInt32 y =
      Int32.ofIntClamp (s.apply (nearest .awayFromZero (size m e) unity)) := by
    unfold nearestInt32 read
    rw [hread, finiteOrZero]
    by_cases hm : m = 0
    · subst hm
      have hzero : nearest .awayFromZero (size 0 e) unity = 0 :=
        (nearest_eq_iff unity_pos).mpr ⟨by omega, by rw [size, Nat.zero_mul]; have := unity_pos; omega⟩
      rw [hzero]
      cases s <;> rfl
    · rw [dif_neg hm, ← hscale]
      cases s <;> rfl
  have hmin : Int32.minValue.toInt = -2147483648 := rfl
  have hmax : Int32.maxValue.toInt = 2147483647 := rfl
  rw [hread', Int32.toInt_ofIntClamp]
  · cases s <;> simp only [apply_positive, apply_negative] <;> omega
  · cases s <;> simp only [apply_positive, apply_negative] <;> omega

/-- One half in units. -/
def half : Nat := size 1 (-1)

theorem size_eq_mul (m : Nat) (e : Int) : size m e = m * size 1 e := by
  rw [size, size, one_mul]

theorem unity_eq : unity = 2 * half := by decide +kernel

theorem two_pow_le_half : 2 ^ 52 ≤ half := by
  have hexp : 52 ≤ ((-1 : Int) + 1074).toNat := by decide
  have hpower := Nat.pow_le_pow_right (n := 2) two_pos hexp
  rwa [half, size, one_mul]

theorem short_mul_half {k : Nat} (hk : k < 2 ^ 53) : Short (k * half) := by
  have hshort := short_size hk (-1)
  rwa [size_eq_mul] at hshort

/-- A multiple of three is no power of two. -/
theorem mul_half_ne_two_pow {j : Nat} (k : Nat) : 3 * j * half ≠ 2 ^ k := by
  intro heq
  have hdvd : 3 ∣ 2 ^ k := ⟨j * half, by rw [← heq, Nat.mul_assoc]⟩
  exact absurd (Nat.prime_three.dvd_of_dvd_pow hdvd) (by decide)

/-- A quotient by ninety is rounded to the same whole number after it was rounded to a double. -/
theorem nearest_size_of_rounded {n m : Nat} {e : Int} (h : Rounded n 90 m e) (hn : Short n)
    (hsmall : n ≤ 2 ^ 37 * unity) :
    nearest .awayFromZero (size m e) unity = nearest .awayFromZero n (90 * unity) := by
  obtain ⟨hlow, hhigh⟩ := (nearest_eq_iff (Nat.mul_pos (by decide) unity_pos)).mp
    (Eq.refl (nearest .awayFromZero n (90 * unity)))
  generalize nearest .awayFromZero n (90 * unity) = q at *
  have hhalf := two_pow_le_half
  rw [nearest_eq_iff unity_pos]
  rw [unity_eq] at hlow hhigh hsmall ⊢
  have hq : q ≤ 2 ^ 37 := by
    refine Nat.le_of_mul_le_mul_right (c := half) ?_ (by omega)
    linarith
  -- the halves around the quotient are doubles, and so are their multiples by ninety
  have hbelow : 0 < q → (2 * q - 1) * half ≤ size m e := by
    intro hpos
    refine h.faithful.below _ (short_mul_half (by omega)) ?_
    obtain ⟨j, rfl⟩ := Nat.exists_eq_add_of_le hpos
    rw [show 2 * (1 + j) - 1 = 2 * j + 1 by omega]
    linarith
  have habove : size m e < (2 * q + 1) * half := by
    have hmul : (2 * q + 1) * half * 90 = 3 * (30 * (2 * q + 1)) * half := by ring
    have hmul' : (2 * q + 1) * half * 90 = 90 * (2 * q + 1) * half := by ring
    refine h.size_lt hn ?_ (fun k => ?_) ?_ (by decide) (by linarith)
    · rw [hmul']
      exact short_mul_half (by omega)
    · rw [hmul]
      exact mul_half_ne_two_pow k
    · exact hhalf.trans (Nat.le_mul_of_pos_left half (by omega))
  refine ⟨?_, by linarith⟩
  rcases Nat.eq_zero_or_pos q with rfl | hpos
  · omega
  · have hbelow' := hbelow hpos
    obtain ⟨j, rfl⟩ := Nat.exists_eq_add_of_le hpos
    rw [show 2 * (1 + j) - 1 = 2 * j + 1 by omega] at hbelow'
    linarith

/-- The quarter turns of an angle: the angle is divided by ninety and rounded once. -/
theorem toInt_nearestInt32_div {x : Float} (hx : x.isFinite = true)
    (hsmall : (units x).natAbs ≤ 2 ^ 37 * unity) :
    (nearestInt32 (x / 90)).toInt = wholeQuotient (units x) (90 * unity) := by
  have hpos : 0 < 90 * unity := Nat.mul_pos (by decide) unity_pos
  obtain ⟨s, n, m, e, hunits, hshort, hrounded, hread⟩ := exists_rounded_div hx ninety
  rw [hunits, natAbs_apply] at hsmall
  have hnearest := nearest_size_of_rounded hrounded hshort hsmall
  rw [hunits, wholeQuotient_apply s n hpos, ← hnearest]
  refine toInt_nearestInt32 hread hrounded.low ?_
  rw [hnearest]
  obtain ⟨hlow, -⟩ := (nearest_eq_iff hpos).mp (Eq.refl (nearest .awayFromZero n (90 * unity)))
  refine Nat.le_of_mul_le_mul_right (c := unity) ?_ unity_pos
  linarith

end BlockArm.Number
