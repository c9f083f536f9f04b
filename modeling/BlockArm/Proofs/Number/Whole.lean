/-
# Whole degrees

Whole numbers of 32 bits are doubles, and sums of doubles that are not too large come out to within a
sixteenth of one.

* `isFinite_iff`: the finite doubles are those below the infinities;
* `Rounds.exact`: what a double stands for exactly is not changed by rounding;
* `isFinite_ofInt32`, `units_ofInt32`: a whole number on the scale;
* `Near`: a double that is close to an integer;
* `Near.add`, `Near.sub`: the errors of sums and differences.
-/
import BlockArm.Proofs.Number.Quotient

namespace BlockArm.Number

open Float.Model (UnpackedFloat Format)
open Float.Model.UnpackedFloat

/-! ## Finite doubles -/

/-- The finite doubles are the numbers below the infinities. -/
theorem isFinite_iff {x : Float} :
    x.isFinite = true ↔ x.isNaN = false ∧ (units x).natAbs < top := by
  have hstored := isStored x
  show x.toModel.unpack.isFinite = true ↔
    x.toModel.unpack.isNaN = false ∧ (unitsOf x.toModel.unpack).natAbs < top
  rcases hu : x.toModel.unpack with ⟨s⟩ | _ | ⟨s⟩ | ⟨s, m, e, hm⟩ <;> rw [hu] at hstored
  case infinity =>
    rw [unitsOf_infinity, natAbs_apply]
    exact ⟨fun h => absurd h Bool.false_ne_true, fun h => absurd h.2 (lt_irrefl top)⟩
  case notANumber =>
    exact ⟨fun h => absurd h Bool.false_ne_true, fun h => absurd h.1.symm Bool.false_ne_true⟩
  case zero => exact ⟨fun _ => ⟨rfl, top_pos⟩, fun _ => rfl⟩
  case finite =>
    rw [unitsOf, natAbs_apply]
    exact ⟨fun _ => ⟨rfl, Stored.size_lt_top hstored⟩, fun _ => rfl⟩

/-! ## Exact values -/

/-- What a double stands for exactly is rounded to itself. -/
theorem Rounds.unitsOf_eq {x : Int} {u : UnpackedFloat} (h : Rounds x 1 u) (hx : OnScale x) :
    unitsOf (unpack .binary64 (pack .binary64 u)) = x :=
  le_antisymm (h.above x hx (by simp)) (h.below x hx (by simp))

/-- So a double that comes about by rounding it is finite and stands for it. -/
theorem Rounds.exact {y : Float} {x : Int} {u : UnpackedFloat} (h : Rounds x 1 u)
    (hy : y.toModel.unpack = unpack .binary64 (pack .binary64 u)) (hx : OnScale x)
    (htop : x.natAbs < top) : y.isFinite = true ∧ units y = x := by
  have hunits : units y = x := (congrArg unitsOf hy).trans (h.unitsOf_eq hx)
  have hnumber : y.isNaN = false := (congrArg UnpackedFloat.isNaN hy).trans h.number
  exact ⟨isFinite_iff.mpr ⟨hnumber, hunits.symm ▸ htop⟩, hunits⟩

/-- Whole numbers below `2 ^ 53` are doubles, also with another exponent. -/
theorem onScale_of_natAbs {c : Int} {k : Nat} {e : Int} (hc : c.natAbs = size k e)
    (hk : k < 2 ^ 53) (he : -1074 ≤ e) (he' : e < 972) : OnScale c where
  short := hc ▸ short_size hk e
  le_top := hc ▸ (size_lt hk he he' le_rfl).le

/-! ## Whole numbers -/

/-- The conversion of a natural number is exact. -/
theorem toFloat_spec {k : UInt64} (hk : k.toNat < 2 ^ 53) :
    k.toFloat.isFinite = true ∧ units k.toFloat = size k.toNat 0 := by
  have hrounds := rounds_normalize (k.toNat : Int) (e := 0) (by decide) .positive
  have hvalue : (k.toNat : Int) * 2 ^ ((0 : Int) + 1074).toNat = size k.toNat 0 := by
    simp only [size, Nat.cast_mul, Nat.cast_pow, Nat.cast_ofNat]
  rw [hvalue] at hrounds
  exact hrounds.exact rfl (onScale_of_natAbs rfl hk (by decide) (by decide))
    (size_lt hk (by decide) (by decide) le_rfl)

/-- A product is rounded, unless it is so small that bits are missing. -/
theorem rounds_mul {s t : Sign} {m m' : Nat} {e e' : Int} (hm : 0 < m) (hm' : 0 < m')
    (hbits : 2 ^ 52 ≤ m') (he : -1074 ≤ e + e') :
    Rounds ((s * t).apply (size (m * m') (e + e'))) 1
      (UnpackedFloat.mul .binary64 (.finite s m e hm) (.finite t m' e' hm')) := by
  obtain ⟨c, x, hround, hrounded⟩ := roundWithAccuracy_spec (s * t) (m * m') one_pos he (.inl (by
    rw [Nat.div_one]
    exact hbits.trans (Nat.le_mul_of_pos_left _ hm)))
  rw [Nat.div_one, Nat.mod_one] at hround
  have hproduct : UnpackedFloat.mul .binary64 (.finite s m e hm) (.finite t m' e' hm') =
      finiteOrZero (s * t) c x := hround
  rw [hproduct]
  exact rounds_of_rounded (s * t) hrounded one_pos

/-- A value that is no smaller than one stays what it is when it is multiplied by one. -/
theorem rounds_mul_one {u : UnpackedFloat} (hu : IsStored u) (hfinite : u.isFinite = true)
    (hlow : unitsOf u = 0 ∨ unity ≤ (unitsOf u).natAbs) :
    Rounds (unitsOf u) 1
      (UnpackedFloat.mul .binary64 u (.finite .positive (2 ^ 52) (-52) (by decide))) := by
  have hsign : ∀ s : Sign, s * Sign.positive = s := fun s => by cases s <;> rfl
  rcases u with ⟨s⟩ | _ | ⟨s⟩ | ⟨s, m, e, hm⟩
  case infinity | notANumber => exact absurd hfinite Bool.false_ne_true
  case zero =>
    rw [UnpackedFloat.mul, hsign]
    exact rounds_of_isStored (u := .zero s) trivial rfl
  case finite =>
    have hstored : Stored m e := hu
    have he : -52 ≤ e := by
      by_contra hsmall
      have hpos := size_pos hm e
      have hlt : size m e < size (2 ^ 52) (-52) :=
        size_lt hstored.lt hstored.low (by omega) le_rfl
      have hunity : unity = size (2 ^ 52) (-52) := by decide +kernel
      rw [unitsOf, natAbs_apply, hunity] at hlow
      have hzero := hlow.resolve_right (by omega)
      have habs := natAbs_apply s (size m e)
      omega
    have hsize : size (m * 2 ^ 52) (e + -52) = size m e := by
      have hcarry := size_mul_two_pow m 52 (e := e + -52) (by omega)
      have hexp : e + -52 + ((52 : Nat) : Int) = e := by omega
      rwa [hexp] at hcarry
    have hrounds := rounds_mul (s := s) (t := .positive) hm (Nat.two_pow_pos 52) le_rfl
      (show -1074 ≤ e + -52 by omega)
    rwa [hsize, hsign] at hrounds

/-- Natural numbers below `2 ^ 53` are doubles. -/
theorem ofNat_spec {k : Nat} (hk : k < 2 ^ 53) :
    (Float.ofNat k).isFinite = true ∧ units (Float.ofNat k) = (k * unity : Nat) := by
  have hof : Float.ofNat k = k.toUInt64.toFloat * 1.0 := dif_pos ⟨hk, by decide⟩
  have htoNat : k.toUInt64.toNat = k := UInt64.toNat_ofNat_of_lt' (hk.trans (by decide))
  obtain ⟨hfinite, hunits⟩ := toFloat_spec (k := k.toUInt64) (by rwa [htoNat])
  rw [htoNat, size_eq_mul] at hunits
  have hlow : units k.toUInt64.toFloat = 0 ∨ unity ≤ (units k.toUInt64.toFloat).natAbs := by
    rw [hunits, Int.natAbs_natCast]
    rcases Nat.eq_zero_or_pos k with rfl | hpos
    · exact .inl (by rw [Nat.zero_mul]; rfl)
    · exact .inr (Nat.le_mul_of_pos_left _ hpos)
  have hrounds := rounds_mul_one (isStored k.toUInt64.toFloat) hfinite hlow
  rw [hof, ← show _ = ((k * unity : Nat) : Int) from hunits]
  exact hrounds.exact (y := k.toUInt64.toFloat * 1.0) rfl (onScale_unitsOf (isStored _))
    (isFinite_iff.mp hfinite).2

/-- The opposite of a finite double is finite. -/
theorem neg_spec {x : Float} (hx : x.isFinite = true) :
    x.neg.isFinite = true ∧ units x.neg = -units x := by
  have hfinite := isFinite_neg (u := x.toModel.unpack) hx
  have hnumber : x.toModel.unpack.neg.isNaN = false := by
    revert hfinite
    cases x.toModel.unpack.neg <;> simp [UnpackedFloat.isFinite, UnpackedFloat.isNaN]
  have hrounds := rounds_of_isStored (isStored_neg (isStored x)) hnumber
  rw [unitsOf_neg] at hrounds
  refine hrounds.exact rfl (onScale_unitsOf (isStored x)).neg ?_
  rw [Int.natAbs_neg]
  exact (isFinite_iff.mp hx).2

/-- So whole numbers of fewer than 53 bits are doubles. -/
theorem ofInt_spec {n : Int} (hn : n.natAbs < 2 ^ 53) :
    (Float.ofInt n).isFinite = true ∧ units (Float.ofInt n) = n * unity := by
  cases n with
  | ofNat k =>
    obtain ⟨hfinite, hunits⟩ := ofNat_spec hn
    exact ⟨hfinite, hunits.trans (Nat.cast_mul k unity)⟩
  | negSucc k =>
    have hn' : k + 1 < 2 ^ 53 := hn
    obtain ⟨hfinite, hunits⟩ := ofNat_spec hn'
    obtain ⟨hfinite', hunits'⟩ := neg_spec hfinite
    refine ⟨hfinite', hunits'.trans ?_⟩
    rw [hunits, Int.negSucc_eq]
    push_cast
    ring

theorem natAbs_toInt_le (n : Int32) : n.toInt.natAbs ≤ 2 ^ 31 := by
  have hlow := n.le_toInt
  have hhigh := n.toInt_lt
  omega

theorem isFinite_ofInt32 (n : Int32) : (ofInt32 n).isFinite = true :=
  (ofInt_spec ((natAbs_toInt_le n).trans_lt (by decide))).1

theorem units_ofInt32 (n : Int32) : units (ofInt32 n) = n.toInt * unity :=
  (ofInt_spec ((natAbs_toInt_le n).trans_lt (by decide))).2

theorem natAbs_units_ofInt32 (n : Int32) : (units (ofInt32 n)).natAbs ≤ 2 ^ 31 * unity := by
  rw [units_ofInt32, Int.natAbs_mul, Int.natAbs_natCast]
  exact Nat.mul_le_mul_right _ (natAbs_toInt_le n)

theorem ofInt32_le_zero {n : Int32} (h : n.toInt ≤ 0) : ofInt32 n ≤ 0 := by
  refine le_iff.mpr ⟨(isFinite_iff.mp (isFinite_ofInt32 n)).1, rfl, ?_⟩
  rw [units_ofInt32]
  exact Int.mul_nonpos_of_nonpos_of_nonneg h (Int.natCast_nonneg unity)

theorem zero_le_ofInt32 {n : Int32} (h : 0 ≤ n.toInt) : 0 ≤ ofInt32 n := by
  refine le_iff.mpr ⟨rfl, (isFinite_iff.mp (isFinite_ofInt32 n)).1, ?_⟩
  rw [units_ofInt32]
  exact Int.mul_nonneg h (Int.natCast_nonneg unity)

/-! ## Sums that are not too large -/

/-- The sixteenth part of one in units. -/
def sixteenth : Nat := size 1 (-4)

theorem unity_eq_sixteenths : unity = 16 * sixteenth := by decide +kernel

theorem sixteenth_pos : 0 < sixteenth := size_pos one_pos _

/-- The multiples of a power of two by whole numbers of 53 bits are doubles. -/
theorem onScale_mul_size {k : Int} {e : Int} (hk : k.natAbs ≤ 2 ^ 53) (he : -1074 ≤ e)
    (he' : e < 971) : OnScale (k * size 1 e) := by
  have habs : (k * size 1 e).natAbs = size k.natAbs e := by
    rw [Int.natAbs_mul, Int.natAbs_natCast, ← size_eq_mul]
  rcases hk.eq_or_lt with heq | hlt
  · have hcarry : size (2 ^ 53) e = size (2 ^ 52) (e + 1) := size_mul_two_pow (2 ^ 52) 1 he
    rw [heq, hcarry] at habs
    exact onScale_of_natAbs habs (by decide) (by omega) (by omega)
  · exact onScale_of_natAbs habs hlt he (by omega)

/-- Sixteenths are doubles up to `2 ^ 49`. -/
theorem onScale_sixteenths {k : Int} (hk : k.natAbs ≤ 2 ^ 53) : OnScale (k * sixteenth) :=
  onScale_mul_size hk (by decide) (by decide)

/-- Rounding goes no farther than the next sixteenth. -/
theorem Rounds.error {x : Int} {u : UnpackedFloat} (h : Rounds x 1 u)
    (hx : x.natAbs < 2 ^ 49 * unity) :
    16 * (unitsOf (unpack .binary64 (pack .binary64 u)) - x).natAbs ≤ unity := by
  have hpos : (0 : Int) < sixteenth := by exact_mod_cast sixteenth_pos
  have hlow := Int.ediv_mul_le x hpos.ne'
  have hhigh := Int.lt_ediv_add_one_mul_self x hpos
  rw [unity_eq_sixteenths] at hx ⊢
  generalize x / (sixteenth : Int) = k at hlow hhigh
  have hk : -2 ^ 53 ≤ k ∧ k < 2 ^ 53 := by
    constructor
    · exact Int.le_of_lt_add_one (lt_of_mul_lt_mul_right (a := (sixteenth : Int)) (by omega) hpos.le)
    · exact lt_of_mul_lt_mul_right (a := (sixteenth : Int)) (by omega) hpos.le
  have hbelow := h.below _ (onScale_sixteenths (k := k) (by omega))
    (by rwa [Nat.cast_one, mul_one])
  have habove := h.above _ (onScale_sixteenths (k := k + 1) (by omega))
    (by rw [Nat.cast_one, mul_one]; exact hhigh.le)
  rw [add_mul, one_mul] at habove hhigh
  omega

/-- A finite double that is so many sixteenths or less away from an integer of units. -/
structure Near (k : Nat) (x : Float) (c : Int) : Prop where
  finite : x.isFinite = true
  error : 16 * (units x - c).natAbs ≤ k * unity

theorem near_self {x : Float} (hx : x.isFinite = true) : Near 0 x (units x) where
  finite := hx
  error := by rw [Int.sub_self]; exact Nat.zero_le _

theorem Near.mono {k l : Nat} {x : Float} {c : Int} (h : Near k x c) (hkl : k ≤ l) :
    Near l x c where
  finite := h.finite
  error := h.error.trans (Nat.mul_le_mul_right unity hkl)

/-- A double that comes about by rounding what is not too large is near to that. -/
theorem Rounds.near {y : Float} {x : Int} {u : UnpackedFloat} (h : Rounds x 1 u)
    (hy : y.toModel.unpack = unpack .binary64 (pack .binary64 u))
    (hx : x.natAbs < 2 ^ 49 * unity) : Near 1 y x := by
  have herror : 16 * (units y - x).natAbs ≤ unity := by
    rw [units, hy]
    exact h.error hx
  have hnumber : y.isNaN = false := (congrArg UnpackedFloat.isNaN hy).trans h.number
  have htop : 2 ^ 50 * unity < top := by decide +kernel
  exact ⟨isFinite_iff.mpr ⟨hnumber, by omega⟩, by rwa [Nat.one_mul]⟩

variable {a b : Float} {c c' : Int} {j k : Nat}

/-- A step of rounding adds a sixteenth to the errors of what was rounded. -/
theorem Near.step {y : Float} {x : Int} (h : Near 1 y x) (hx : 16 * (x - c).natAbs ≤ k * unity) :
    Near (k + 1) y c where
  finite := h.finite
  error := by
    have herror := h.error
    rw [Nat.add_mul]
    omega

/-- The errors of a sum that is not too large add up. -/
theorem Near.add (ha : Near j a c) (hb : Near k b c')
    (hsmall : (units a + units b).natAbs < 2 ^ 49 * unity) :
    Near (j + k + 1) (a + b) (c + c') := by
  have hrounds := rounds_add (isStored a) (isStored b) ha.finite hb.finite
  refine (hrounds.near (y := a + b) rfl hsmall).step ?_
  have hfirst := ha.error
  have hsecond := hb.error
  rw [Nat.add_mul]
  show 16 * (units a + units b - (c + c')).natAbs ≤ _
  omega

/-- And so do those of a difference. -/
theorem Near.sub (ha : Near j a c) (hb : Near k b c')
    (hsmall : (units a - units b).natAbs < 2 ^ 49 * unity) :
    Near (j + k + 1) (a - b) (c - c') := by
  refine ((rounds_sub ha.finite hb.finite).near (unpack_sub a b) hsmall).step ?_
  have hfirst := ha.error
  have hsecond := hb.error
  rw [Nat.add_mul]
  show 16 * (units a - units b - (c - c')).natAbs ≤ _
  omega

end BlockArm.Number
