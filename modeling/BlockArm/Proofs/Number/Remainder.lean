/-
# Remainders and distances

The remainder modulo a whole number lies between zero and that number, also after rounding.  The
distance of two doubles that are not far apart is nearly exact, and the least of several distances is
found by comparing them one after the other.

* `Below`: a double that is not far from zero, or no number;
* `natAbs_sub_le`, `le_natAbs_sub`: rounding takes no difference across a whole number;
* `remainder_range`: remainders lie between zero and the modulus;
* `exists_distance`: distances are nearly exact;
* `exists_least`: the least of several numbers.
-/
import BlockArm.Proofs.Number.Length
import BlockArm.Wrist

namespace BlockArm.Number

open Float.Model (UnpackedFloat Format)
open Float.Model.UnpackedFloat

/-! ## Doubles near zero -/

/-- The double is no number, or it is less than so many halves away from zero. -/
def Below (k : Nat) (x : Float) : Prop := x.isNaN = false → 2 * (units x).natAbs < k * unity

variable {a b x : Float} {k n : Nat}

theorem Below.mono {l : Nat} (h : Below k x) (hkl : k ≤ l) : Below l x :=
  fun hx => (h hx).trans_le (Nat.mul_le_mul_right _ hkl)

/-- The numbers that are not far from zero are finite. -/
theorem isFinite_of_natAbs_le (hx : x.isNaN = false) (h : (units x).natAbs ≤ 2 ^ 50 * unity) :
    x.isFinite = true := by
  have htop : 2 ^ 50 * unity < top := by decide +kernel
  exact isFinite_iff.mpr ⟨hx, by omega⟩

/-! ## Remainders -/

/-- Small whole numbers are on the scale. -/
theorem onScale_unity (hn : n < 2 ^ 53) : OnScale ((n : Int) * unity) := by
  refine onScale_of_natAbs (k := n) (e := 0) ?_ hn (by decide) (by decide)
  rw [Int.natAbs_mul, Int.natAbs_natCast, Int.natAbs_natCast, size_eq_mul]
  rfl

section

variable (ha : a.isFinite = true) (hb : b.isFinite = true) (hn : n < 2 ^ 53)

include ha hb hn

/-- A difference that is at most a small whole number is so after rounding. -/
theorem natAbs_sub_le (h : (units a - units b).natAbs ≤ n * unity) :
    (units (a - b)).natAbs ≤ n * unity := by
  have hrounds := rounds_sub ha hb
  have hscale := onScale_unity hn
  have hge := hrounds.below _ hscale.neg (by rw [Nat.cast_one, mul_one]; omega)
  have hle := hrounds.above _ hscale (by rw [Nat.cast_one, mul_one]; omega)
  rw [← unpack_sub] at hge hle
  show (unitsOf (a - b).toModel.unpack).natAbs ≤ _
  omega

/-- And so is one that is at least that number. -/
theorem le_natAbs_sub (h : n * unity ≤ (units a - units b).natAbs) :
    n * unity ≤ (units (a - b)).natAbs := by
  have hrounds := rounds_sub ha hb
  have hscale := onScale_unity hn
  show _ ≤ (unitsOf (a - b).toModel.unpack).natAbs
  rw [unpack_sub]
  rcases le_or_gt 0 (units a - units b) with hpos | hneg
  · have hge := hrounds.below _ hscale (by rw [Nat.cast_one, mul_one]; omega)
    omega
  · have hle := hrounds.above _ hscale.neg (by rw [Nat.cast_one, mul_one]; omega)
    omega

end

/-- A remainder, on the scale of units, is less than the modulus. -/
theorem remainderMagnitude_lt (m : Nat) {e : Int} (he : -1074 ≤ e) (hn : 0 < n) :
    remainderMagnitude m e n * 2 ^ (min e 0 + 1074).toNat < n * unity := by
  have hunity : unity = twoTo (-e).toNat * 2 ^ (min e 0 + 1074).toNat := by
    have hexp : ((0 : Int) + 1074).toNat = (-e).toNat + (min e 0 + 1074).toNat := by omega
    rw [unity, size, one_mul, hexp, Nat.pow_add]
    rfl
  rw [hunity, ← Nat.mul_assoc]
  exact Nat.mul_lt_mul_of_pos_right (Nat.mod_lt _ (Nat.mul_pos hn (twoTo_pos _)))
    (Nat.two_pow_pos _)

/-- The exact remainder takes the sign of what was divided, and is less than the modulus. -/
theorem units_ofExact_remainder (s : Sign) (m : Nat) {e : Int} (he : -1074 ≤ e) (hn : 0 < n)
    (hsmall : n < 2 ^ 53) :
    let magnitude : Int := remainderMagnitude m e n
    let r := ofExact (if isNegative s then -magnitude else magnitude) (min e 0) s
    r.isNaN = false ∧ -(n * unity : Int) ≤ units r ∧ units r ≤ n * unity := by
  intro magnitude r
  have hlt := remainderMagnitude_lt m he hn
  have hrounds := rounds_normalize (if isNegative s then -magnitude else magnitude)
    (e := min e 0) (by omega) s
  have hscale := onScale_unity hsmall
  have hbound : ((if isNegative s then -magnitude else magnitude) *
      2 ^ (min e 0 + 1074).toNat).natAbs < n * unity := by
    have habs : (if isNegative s then -magnitude else magnitude).natAbs =
        remainderMagnitude m e n := by
      cases s <;> simp [isNegative, magnitude]
    rw [Int.natAbs_mul, habs, Int.natAbs_pow]
    exact hlt
  have hbound' : (n * unity : Int) = (n * unity : Nat) := by push_cast; rfl
  refine ⟨hrounds.number, hrounds.below _ hscale.neg ?_, hrounds.above _ hscale ?_⟩ <;>
    rw [Nat.cast_one, mul_one, hbound'] <;> omega

/-- A remainder lies between zero and the modulus. -/
theorem remainder_range (hn : 0 < n) (hsmall : n < 2 ^ 53)
    (hnumber : (remainder x n).isNaN = false) :
    0 ≤ units (remainder x n) ∧ units (remainder x n) ≤ n * unity := by
  have hpos : 0 ≤ (n * unity : Int) := Int.mul_nonneg (Int.natCast_nonneg n) (Int.natCast_nonneg _)
  have hstored := isStored x
  unfold remainder at hnumber ⊢
  rcases hu : x.toModel.unpack with ⟨s⟩ | _ | ⟨s⟩ | ⟨s, m, e, hm⟩ <;> rw [hu] at hnumber hstored <;>
    simp only at hnumber ⊢
  case infinity | notANumber => exact absurd hnumber (by decide)
  case zero =>
    have hzero : units x = 0 := congrArg unitsOf hu
    rw [hzero]
    exact ⟨le_rfl, hpos⟩
  case finite =>
    obtain ⟨hr, hlow, hhigh⟩ := units_ofExact_remainder s m hstored.low hn hsmall
    generalize ofExact (if isNegative s then -(remainderMagnitude m e n : Int)
      else remainderMagnitude m e n) (min e 0) s = r at *
    split
    · next hneg =>
      have hneg' : units r < 0 := (lt_iff.mp hneg).2.2
      obtain ⟨hfinite, hunits⟩ := ofNat_spec hsmall
      have hrfinite : r.isFinite = true := by
        have htop : n * unity < top := by
          have hlt := size_lt (e := 0) hsmall (by decide) (show (0 : Int) < 972 by decide)
            (Nat.le_refl (2 ^ 52))
          rwa [size_eq_mul] at hlt
        have hcast : (n * unity : Int) = (n * unity : Nat) := by push_cast; rfl
        exact isFinite_iff.mpr ⟨hr, by omega⟩
      have hrounds : Rounds (units r + units (Float.ofNat n)) 1 _ :=
        rounds_add (isStored r) (isStored _) hrfinite hfinite
      rw [hunits, Nat.cast_mul] at hrounds
      exact ⟨hrounds.below 0 ⟨short_zero, Nat.zero_le top⟩ (by rw [zero_mul]; omega),
        hrounds.above _ (onScale_unity hsmall) (by rw [Nat.cast_one, mul_one]; omega)⟩
    · next hneg =>
      exact ⟨(le_iff.mp (le_of_not_lt hr rfl hneg)).2.2, hhigh⟩

/-! ## Distances -/

/-- The distance of two doubles that are not far apart is nearly exact. -/
theorem exists_distance (ha : a.isFinite = true) (hb : b.isFinite = true)
    (hsmall : (units a - units b).natAbs < 2 ^ 49 * unity) :
    ∃ c, distance? a b = some c ∧ Near 1 c (units a - units b).natAbs := by
  have hnear := (near_self ha).sub (near_self hb) hsmall
  have hnumber := (isFinite_iff.mp hnear.finite).1
  have habs : (a - b).abs.isFinite = true := (isFinite_abs _).trans hnear.finite
  refine ⟨(a - b).abs, if_pos habs, habs, ?_⟩
  have herror := hnear.error
  rw [(units_abs hnumber).2, Int.abs_eq_natAbs]
  omega

/-- Taking the smaller one over and over comes to the smallest. -/
theorem exists_least {f : Option Float → Float → Option Float}
    (hsome : ∀ b c, f (some b) c = if c < b then some c else some b) (cs : List Float) :
    ∀ b : Float, b.isNaN = false → (∀ c ∈ cs, c.isNaN = false) →
      ∃ m ∈ b :: cs, cs.foldl f (some b) = some m ∧ ∀ c ∈ b :: cs, units m ≤ units c := by
  induction cs with
  | nil =>
    intro b _ _
    refine ⟨b, List.mem_cons_self, rfl, fun c hc => ?_⟩
    rw [List.mem_singleton.mp hc]
  | cons c cs ih =>
    intro b hb hcs
    have hc := hcs c List.mem_cons_self
    have hrest := fun x hx => hcs x (List.mem_cons_of_mem _ hx)
    rw [List.foldl_cons, hsome]
    split
    · next hlt =>
      obtain ⟨m, hmem, hfold, hle⟩ := ih c hc hrest
      have hlt' := (lt_iff.mp hlt).2.2
      have hm := hle c List.mem_cons_self
      refine ⟨m, List.mem_cons_of_mem _ hmem, hfold, List.forall_mem_cons.mpr ⟨?_, hle⟩⟩
      omega
    · next hlt =>
      obtain ⟨m, hmem, hfold, hle⟩ := ih b hb hrest
      have hge := (le_iff.mp (le_of_not_lt hc hb hlt)).2.2
      obtain ⟨hm, hle'⟩ := List.forall_mem_cons.mp hle
      refine ⟨m, ?_, hfold, List.forall_mem_cons.mpr ⟨hm, List.forall_mem_cons.mpr ⟨?_, hle'⟩⟩⟩
      · rcases List.mem_cons.mp hmem with rfl | hmem
        · exact List.mem_cons_self
        · exact List.mem_cons_of_mem _ (List.mem_cons_of_mem _ hmem)
      · omega

end BlockArm.Number
