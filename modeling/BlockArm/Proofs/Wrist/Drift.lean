/-
# How far the wrist misses

Where the range has neither the angle that was asked for nor one half a turn away, the servo is sent to
an end of the range, and misses.  A move asks for a quarter turn at most, so that it misses by little.
A turn may ask for any number of degrees, but the servo does not turn farther than that, or it turns
within a range that is small.  All this is up to rounding.

* `below_bearingChange`: bearings change by a quarter turn at most;
* `WristRange.nearestEnd_eq_low`, `WristRange.nearestEnd_eq_high`: the end that is nearest to angles
  on one side of the range;
* `WristRange.below_follow`: how far a move misses, whatever the range;
* `WristRange.units_of_settle_clamped`: where the servo is sent if no angle is met;
* `WristRange.below_turn`: how far a turn goes;
* `WristRange.below_center`, `WristRange.exists_far_from_center`: how far it is to the middle of the
  range.
-/
import BlockArm.Proofs.Number.Mean
import BlockArm.Proofs.Number.Step
import BlockArm.Proofs.Wrist.Aliases
import BlockArm.Proofs.Wrist.Nearest

namespace BlockArm

open Number (units unity Near Below)

/-! ## Bearings -/

/-- From more than a quarter turn and up to half a turn, half a turn back is a quarter turn at most,
also after rounding. -/
theorem natAbs_sub_halfTurn_le {delta : Float} (hdelta : delta.isNaN = false)
    (hlow : 90 * unity < units delta) (hhigh : units delta ≤ 180 * unity) :
    (units (delta - Degrees.whole 180)).natAbs ≤ 90 * unity := by
  have hunity := Number.unity_pos
  obtain ⟨hhalf, hhalf'⟩ : (Degrees.whole 180 : Float).isFinite = true ∧
      units (Degrees.whole 180 : Float) = 180 * unity := Number.ofInt_spec (by decide)
  have hrounds := Number.rounds_sub (Number.isFinite_of_natAbs_le hdelta (by omega)) hhalf
  have hge := hrounds.below (-(90 * unity)) (Number.onScale_unity (by decide)).neg
    (by rw [Nat.cast_one, mul_one]; omega)
  have hle := hrounds.above 0 ⟨Number.short_zero, Nat.zero_le _⟩ (by rw [zero_mul]; omega)
  rw [← Number.unpack_sub] at hge hle
  show (Number.unitsOf (delta - Degrees.whole 180).toModel.unpack).natAbs ≤ _
  omega

/-- Bearings change by a quarter turn at most. -/
theorem below_bearingChange (old new : Float) : Below 181 (bearingChange old new) := by
  intro hnumber
  have hunity := Number.unity_pos
  obtain ⟨hninety, hninety'⟩ : (Degrees.whole 90 : Float).isFinite = true ∧
      units (Degrees.whole 90 : Float) = 90 * unity := Number.ofInt_spec (by decide)
  unfold bearingChange at hnumber ⊢
  have hrange : (Degrees.modHalfTurn (new - old) : Float).isNaN = false →
      0 ≤ units (Degrees.modHalfTurn (new - old)) ∧
        units (Degrees.modHalfTurn (new - old)) ≤ 180 * unity :=
    Number.remainder_range (by decide) (by decide)
  generalize (Degrees.modHalfTurn (new - old) : Float) = delta at *
  simp only at hnumber ⊢
  split
  · next hlt =>
    obtain ⟨-, hdelta, hlt'⟩ := Number.lt_iff.mp hlt
    have hle := natAbs_sub_halfTurn_le hdelta (hninety' ▸ hlt') (hrange hdelta).2
    omega
  · next hlt =>
    rw [if_neg hlt] at hnumber
    obtain ⟨hge, -⟩ := hrange hnumber
    obtain ⟨-, -, hle⟩ := Number.le_iff.mp
      (Number.le_of_not_lt (Number.isFinite_iff.mp hninety).1 hnumber hlt)
    omega

/-! ## The nearest end -/

namespace WristRange

variable {r : WristRange Float} {wrist limit : Float} {angles : List Float}

/-- The distance to the nearest of several angles is the distance to one of them, and to none of them
it is farther than that. -/
theorem exists_nearestTo (hne : angles ≠ []) (hlimit : limit.isFinite = true)
    (hangles : ∀ a ∈ angles, a.isFinite = true ∧
      (units a - units limit).natAbs < 2 ^ 49 * unity) :
    ∃ c, nearestTo limit angles = some c ∧ c.isNaN = false ∧
      (∃ a ∈ angles, Near 1 c (units a - units limit).natAbs) ∧
      ∀ a ∈ angles, 16 * units c ≤ 16 * (units a - units limit).natAbs + unity := by
  have hdistance : ∀ a ∈ angles, ∃ c, Number.distance? a limit = some c ∧
      Near 1 c (units a - units limit).natAbs :=
    fun a ha => Number.exists_distance (hangles a ha).1 hlimit (hangles a ha).2
  obtain ⟨b, hb⟩ := exists_nearest hne fun a ha =>
    Number.isNaN_finite_sub (hangles a ha).1 (Number.isFinite_iff.mp hlimit).1
  obtain ⟨c, hc, hnear⟩ := hdistance b hb.mem
  refine ⟨c, hb.found.trans hc, (Number.isFinite_iff.mp hnear.finite).1, ⟨b, hb.mem, hnear⟩,
    fun a ha => ?_⟩
  obtain ⟨d, hd, hnear'⟩ := hdistance a ha
  obtain ⟨-, rfl⟩ := Number.distance?_eq_some_iff.mp hc
  obtain ⟨-, rfl⟩ := Number.distance?_eq_some_iff.mp hd
  have hle := (Number.le_iff.mp (hb.least a ha)).2.2
  have herror := hnear'.error
  omega

section

variable (hr : r.Moderate) (hspan : units r.low + unity ≤ units r.high) (hne : angles ≠ [])

include hr hspan hne

/-- The distances from both ends of a moderate range to the nearest of several angles. -/
theorem exists_nearestTo_ends (hle : r.low ≤ r.high)
    (hangles : ∀ a ∈ angles, a.isFinite = true ∧ (units a).natAbs ≤ 2 ^ 48 * unity) :
    (∃ c, nearestTo r.low angles = some c ∧ c.isNaN = false ∧
      (∃ a ∈ angles, Near 1 c (units a - units r.low).natAbs) ∧
      ∀ a ∈ angles, 16 * units c ≤ 16 * (units a - units r.low).natAbs + unity) ∧
    ∃ c, nearestTo r.high angles = some c ∧ c.isNaN = false ∧
      (∃ a ∈ angles, Near 1 c (units a - units r.high).natAbs) ∧
      ∀ a ∈ angles, 16 * units c ≤ 16 * (units a - units r.high).natAbs + unity := by
  obtain ⟨hlow, hlow'⟩ := hr.angle (contains_low hle)
  obtain ⟨hhigh, hhigh'⟩ := hr.angle (contains_high hle)
  have hunity := Number.unity_pos
  constructor
  · refine exists_nearestTo hne hlow fun a ha => ⟨(hangles a ha).1, ?_⟩
    have hbound := (hangles a ha).2
    omega
  · refine exists_nearestTo hne hhigh fun a ha => ⟨(hangles a ha).1, ?_⟩
    have hbound := (hangles a ha).2
    omega

/-- The lower end is the nearest one to angles below the range. -/
theorem nearestEnd_eq_low (hle : r.low ≤ r.high)
    (hangles : ∀ a ∈ angles, a.isFinite = true ∧ (units a).natAbs ≤ 2 ^ 48 * unity)
    (hbelow : ∀ a ∈ angles, units a < units r.low) : r.nearestEnd angles = r.low := by
  obtain ⟨⟨c, hc, hnumber, -, hleast⟩, c', hc', hnumber', ⟨a, ha, hnear⟩, -⟩ :=
    exists_nearestTo_ends hr hspan hne hle hangles
  have hfirst := hleast a ha
  have herror := hnear.error
  have hlt := hbelow a ha
  have hleq : c ≤ c' := Number.le_iff.mpr ⟨hnumber, hnumber', by omega⟩
  rw [nearestEnd, hc, hc', atMost, decide_eq_true hleq, if_pos rfl]

/-- The upper end is the nearest one to angles above the range. -/
theorem nearestEnd_eq_high (hle : r.low ≤ r.high)
    (hangles : ∀ a ∈ angles, a.isFinite = true ∧ (units a).natAbs ≤ 2 ^ 48 * unity)
    (habove : ∀ a ∈ angles, units r.high < units a) : r.nearestEnd angles = r.high := by
  obtain ⟨⟨c, hc, hnumber, ⟨a, ha, hnear⟩, -⟩, c', hc', hnumber', -, hleast⟩ :=
    exists_nearestTo_ends hr hspan hne hle hangles
  have hunity := Number.unity_pos
  have hfirst := hleast a ha
  have herror := hnear.error
  have hlt := habove a ha
  have hgt : ¬ c ≤ c' := fun hleq => by
    have hleq' := (Number.le_iff.mp hleq).2.2
    omega
  rw [nearestEnd, hc, hc', atMost, decide_eq_false hgt, if_neg Bool.false_ne_true]

end

/-! ## Moves -/

/-- An infinite angle is met wherever a move leads: what it asks for is the same infinity. -/
theorem not_clamped_of_infinite {delta requested applied : Float} {s : Float.Model.UnpackedFloat.Sign}
    (hcontains : r.contains wrist = true) (hdelta : delta.isFinite = true)
    (hwrist : wrist.toModel.unpack = .infinity s) :
    r.follow wrist delta ≠ .clamped requested applied := by
  intro h
  have hsame := (Number.unpack_infinity_add hwrist hdelta).1.trans hwrist.symm
  obtain ⟨hge, hle⟩ := contains_iff.mp hcontains
  have hasked : r.contains (wrist + delta) = true := by
    have hunits : units (wrist + delta) = units wrist := congrArg Number.unitsOf hsame
    have hnumber : (wrist + delta).isNaN = wrist.isNaN :=
      congrArg Float.Model.UnpackedFloat.isNaN hsame
    refine contains_iff.mpr ⟨Number.le_iff.mpr ?_, Number.le_iff.mpr ?_⟩ <;> rw [hnumber, hunits]
    · exact Number.le_iff.mp hge
    · exact Number.le_iff.mp hle
  exact (eq_of_settle_clamped h).2.2 _ List.mem_cons_self (admits_of_contains hasked)

/-- An angle that is not finite is not admitted by a range whose ends are. -/
theorem not_admits_of_not_finite {a : Float} (hlow : r.low.isFinite = true)
    (hhigh : r.high.isFinite = true) (ha : a.isFinite = false) : ¬ r.admits a = true := by
  intro hadmits
  obtain ⟨hge, hle⟩ := admits_iff.mp hadmits
  obtain ⟨hlow', hnumber, hge'⟩ := Number.le_iff.mp hge
  obtain ⟨-, hhigh', hle'⟩ := Number.le_iff.mp hle
  have hslack : (1e-9 : Float).isFinite = true ∧
      2 * (units (1e-9 : Float)).natAbs < Number.size 1 971 := by decide +kernel
  have hdown := Number.natAbs_sub_sub_le hlow hslack.1
  have hup := Number.natAbs_add_sub_le hhigh hslack.1
  have hfirst := (Number.isFinite_iff.mp (Number.isFinite_of_near hlow hlow' (by omega))).2
  have hlast := (Number.isFinite_iff.mp (Number.isFinite_of_near hhigh hhigh' (by omega))).2
  exact Bool.false_ne_true (ha.symm.trans (Number.isFinite_iff.mpr ⟨hnumber, by omega⟩))

/-- So where a move asks for such an angle, the servo is sent to one of the ends. -/
theorem exists_clamped_of_not_finite {delta : Float} (hlow : r.low.isFinite = true)
    (hhigh : r.high.isFinite = true) (h : (wrist + delta).isFinite = false) :
    ∃ applied, applied.isFinite = true ∧ r.follow wrist delta = .clamped (wrist + delta) applied := by
  have hback : (wrist + delta - Degrees.whole 180).isFinite = false :=
    Bool.eq_false_iff.mpr fun hfinite =>
      Bool.false_ne_true (h.symm.trans (Number.isFinite_sub hfinite).1)
  have hnone : [wrist + delta, wrist + delta - Degrees.whole 180].find? r.admits = none := by
    refine List.find?_eq_none.mpr (List.forall_mem_cons.mpr ⟨?_, List.forall_mem_singleton.mpr ?_⟩)
    · exact not_admits_of_not_finite hlow hhigh h
    · exact not_admits_of_not_finite hlow hhigh hback
  refine ⟨r.nearestEnd [wrist + delta, wrist + delta - Degrees.whole 180], ?_, ?_⟩
  · unfold nearestEnd
    split
    · exact hlow
    · exact hhigh
  · simp only [follow, settle, hnone]

/-- From a finite angle, a move asks for finite ones that are close to it. -/
theorem follow_near {delta : Float} (hwrist : wrist.isFinite = true) (hdelta : delta.isFinite = true)
    (hbelow : Below 181 delta) :
    ((wrist + delta).isFinite = true ∧
      (units (wrist + delta) - units wrist).natAbs ≤ 181 * unity) ∧
    (wrist + delta - Degrees.whole 180).isFinite = true ∧
      (units (wrist + delta - Degrees.whole 180) - units (wrist + delta)).natAbs ≤ 360 * unity := by
  obtain ⟨hhalf, hhalf'⟩ : (Degrees.whole 180 : Float).isFinite = true ∧
      units (Degrees.whole 180 : Float) = 180 * unity := Number.ofInt_spec (by decide)
  have hgap : 360 * unity < Number.size 1 971 := by decide +kernel
  have hsmall := hbelow (Number.isFinite_iff.mp hdelta).1
  have hchange := Number.natAbs_add_sub_le hwrist hdelta
  have htarget : (wrist + delta).isFinite = true :=
    Number.isFinite_of_near hwrist (Number.isNaN_add (Number.isFinite_iff.mp hwrist).1 hdelta)
      (by omega)
  have hback := Number.natAbs_sub_sub_le htarget hhalf
  rw [hhalf'] at hback
  exact ⟨⟨htarget, by omega⟩, Number.isFinite_of_near htarget
    (Number.isNaN_sub (Number.isFinite_iff.mp htarget).1 hhalf) (by omega), by omega⟩

/-- Where a move asks for an angle that is not met, the servo misses it by little more than one and a
half turns, whatever the range: the wrist is in it, and no end of it that is farther from what was
asked for is chosen. -/
theorem below_follow {delta requested applied : Float}
    (hwrist : wrist.isNaN = true ∨ r.contains wrist = true) (hdelta : Below 181 delta)
    (h : r.follow wrist delta = .clamped requested applied) : Below 1085 (applied - requested) := by
  intro hnumber
  obtain rfl := (eq_of_settle_clamped h).1
  obtain ⟨happlied, htarget⟩ := Number.isNaN_terms_sub hnumber
  obtain ⟨hwrist', hdelta'⟩ := Number.isNaN_terms_add htarget
  have hcontains := hwrist.resolve_left (by rw [hwrist']; exact Bool.false_ne_true)
  have hunity := Number.unity_pos
  have hsmall := hdelta hdelta'
  have hdelta'' := Number.isFinite_of_natAbs_le hdelta' (by omega)
  have hfinite : wrist.isFinite = true := by
    by_contra hinfinite
    obtain ⟨s, hs⟩ := Number.exists_infinity (u := wrist.toModel.unpack) hwrist'
      (Bool.eq_false_iff.mpr hinfinite)
    exact not_clamped_of_infinite hcontains hdelta'' hs h
  obtain ⟨⟨hasked, hclose⟩, hother, hclose'⟩ := follow_near hfinite hdelta'' hdelta
  -- the end is no farther from one of the two angles than the wrist is from the one asked for
  obtain ⟨c, hc, hclosest⟩ := exists_closest_of_settle (low_le_high hcontains) h
    (List.forall_mem_cons.mpr ⟨hasked, List.forall_mem_singleton.mpr hother⟩)
  have hc' : c.isFinite = true ∧ (units c - units (wrist + delta)).natAbs ≤ 360 * unity := by
    rcases List.mem_cons.mp hc with rfl | hmem
    · exact ⟨hasked, by omega⟩
    · obtain rfl := List.mem_singleton.mp hmem
      exact ⟨hother, hclose'⟩
  have hle := (Number.le_iff.mp (hclosest wrist hcontains _ List.mem_cons_self)).2.2
  rw [(Number.units_abs (Number.isNaN_finite_sub hc'.1 happlied)).2,
    (Number.units_abs (Number.isNaN_finite_sub hasked hwrist')).2, Int.abs_eq_natAbs,
    Int.abs_eq_natAbs] at hle
  have hreach := Number.natAbs_sub_le hasked hfinite (n := 181) (by decide) hclose
  have hend : applied.isFinite = true := by
    by_contra hinfinite
    obtain ⟨htop, hunits⟩ := Number.units_sub_of_infinite hc'.1 happlied hinfinite
    have hlarge : 181 * unity < Number.top := by decide +kernel
    omega
  have hmiss : (units c - units applied).natAbs < 182 * unity := by
    by_contra hfar
    have hfar' := Number.le_natAbs_sub hc'.1 hend (n := 182) (by decide) (by omega)
    omega
  have hmissed := Number.natAbs_sub_le hend hasked (n := 542) (by decide) (by omega)
  omega

/-! ## Settings -/

variable (hr : r.Moderate)

include hr

/-- The difference of two angles that are not large is nearly exact. -/
theorem below_sub {a b : Float} {k : Nat} (ha : r.contains a = true) (hb : b.isFinite = true)
    (hk : k ≤ 2 ^ 40) (h : 2 * (units a - units b).natAbs + unity ≤ k * unity) :
    Below k (a - b) := by
  obtain ⟨hfinite, hbound⟩ := hr.angle ha
  have hunity := Number.unity_pos
  have hlarge : k * unity ≤ 2 ^ 40 * unity := Nat.mul_le_mul_right _ hk
  have hnear := (Number.near_self hfinite).sub (Number.near_self hb) (by omega)
  have herror := hnear.error
  exact fun _ => by omega

omit hr in
/-- The angles half a turn away from one that is not large. -/
theorem halfTurns_near {target : Float} (hfinite : target.isFinite = true)
    (hbound : (units target).natAbs ≤ 2 ^ 48 * unity) :
    ((target - Degrees.whole 180).isFinite = true ∧
      (units (target - Degrees.whole 180) - units target).natAbs ≤ 181 * unity) ∧
    ((target + Degrees.whole 180).isFinite = true ∧
      (units (target + Degrees.whole 180) - units target).natAbs ≤ 181 * unity) := by
  have hunity := Number.unity_pos
  obtain ⟨hhalf, hhalf'⟩ : (Degrees.whole 180 : Float).isFinite = true ∧
      units (Degrees.whole 180 : Float) = 180 * unity := Number.ofInt_spec (by decide)
  have hless := (Number.near_self hfinite).sub (Number.near_self hhalf) (by omega)
  have hmore := (Number.near_self hfinite).add (Number.near_self hhalf) (by omega)
  have herror := hless.error
  have herror' := hmore.error
  exact ⟨⟨hless.finite, by omega⟩, ⟨hmore.finite, by omega⟩⟩

/-- If none of the angles half a turn apart is in the range, then either the range is small, or they all
lie on one side of it, and the servo is sent to the end on that side. -/
theorem units_of_settle_clamped {target requested applied : Float} {others : List Float}
    (hle : r.low ≤ r.high) (hfinite : target.isFinite = true)
    (hbound : (units target).natAbs ≤ 2 ^ 47 * unity + 2 ^ 32 * unity)
    (hothers : ∀ a ∈ others, a.isFinite = true ∧ (units a - units target).natAbs ≤ 181 * unity)
    (h : r.settle target others = .clamped requested applied) :
    units r.high ≤ units r.low + 200 * unity ∨
      (units target < units r.low ∧ applied = r.low ∨
        units r.high < units target ∧ applied = r.high) := by
  obtain ⟨-, rfl, hout⟩ := eq_of_settle_clamped h
  have hunity := Number.unity_pos
  refine or_iff_not_imp_left.mpr fun hspan => ?_
  have hside : ∀ a ∈ target :: others, units a < units r.low ∨ units r.high < units a := by
    intro a ha
    have hnumber : a.isFinite = true := by
      rcases List.mem_cons.mp ha with rfl | hother
      · exact hfinite
      · exact (hothers a hother).1
    exact lt_or_lt_of_not_admits hle (Number.isFinite_iff.mp hnumber).1 (hout a ha)
  have hclose : ∀ a ∈ target :: others, a.isFinite = true ∧
      (units a).natAbs ≤ 2 ^ 48 * unity ∧ (units a - units target).natAbs ≤ 181 * unity := by
    refine List.forall_mem_cons.mpr ⟨⟨hfinite, by omega, by omega⟩, fun a ha => ?_⟩
    obtain ⟨hfinite', hdistance⟩ := hothers a ha
    exact ⟨hfinite', by omega, hdistance⟩
  have hangles : ∀ a ∈ target :: others, a.isFinite = true ∧
      (units a).natAbs ≤ 2 ^ 48 * unity := fun a ha => ⟨(hclose a ha).1, (hclose a ha).2.1⟩
  rcases hside target List.mem_cons_self with hlow | hhigh
  · refine .inl ⟨hlow, nearestEnd_eq_low hr (by omega) (by simp) hle hangles fun a ha => ?_⟩
    have hdistance := (hclose a ha).2.2
    have haside := hside a ha
    omega
  · refine .inr ⟨hhigh, nearestEnd_eq_high hr (by omega) (by simp) hle hangles fun a ha => ?_⟩
    have hdistance := (hclose a ha).2.2
    have haside := hside a ha
    omega

/-- A turn takes the servo no farther than was asked for, up to rounding, or through a small range. -/
theorem below_turn (hwrist : wrist.isNaN = true ∨ r.contains wrist = true) (degrees : Int32) :
    Below 4294967300 ((r.turn wrist (Number.ofInt32 degrees)).angle - wrist) := by
  intro hnumber
  have hwrist' := (Number.isNaN_terms_sub hnumber).2
  have hcontains := hwrist.resolve_left (by rw [hwrist']; exact Bool.false_ne_true)
  have hle := low_le_high hcontains
  obtain ⟨hfinite, hbound⟩ := hr.angle hcontains
  have hunity := Number.unity_pos
  have hlow := degrees.le_toInt
  have hhigh := degrees.toInt_lt
  cases hturn : r.turn wrist (Number.ofInt32 degrees) with
  | exact a =>
    obtain ⟨k, hk, hnear⟩ := near_turn hr hcontains hturn
    have herror := hnear.error
    have hturned : ((degrees.toInt + 180 * k) * unity).natAbs ≤ 2147483648 * unity := by
      rw [Int.natAbs_mul, Int.natAbs_natCast]
      exact Nat.mul_le_mul_right _ (by omega)
    rw [WristSetting.angle_exact]
    omega
  | clamped requested applied =>
    have hlarge := Number.natAbs_units_ofInt32 degrees
    have hsum := (Number.near_self hfinite).add
      (Number.near_self (Number.isFinite_ofInt32 degrees)) (by omega)
    have herror := hsum.error
    obtain ⟨hless, hmore⟩ := halfTurns_near hsum.finite (by omega)
    have happlied : r.contains (r.turn wrist (Number.ofInt32 degrees)).angle = true :=
      contains_settle hle _ _
    rw [hturn, WristSetting.angle_clamped] at happlied hnumber
    rw [WristSetting.angle_clamped]
    obtain ⟨hge, hle'⟩ := units_of_contains hcontains
    obtain ⟨hge', hle''⟩ := units_of_contains happlied
    refine below_sub hr happlied hfinite (by decide) ?_ hnumber
    rcases units_of_settle_clamped hr hle hsum.finite (by omega)
      (List.forall_mem_cons.mpr ⟨hless, List.forall_mem_singleton.mpr hmore⟩) hturn
      with hspan | ⟨hbelow, rfl⟩ | ⟨habove, rfl⟩ <;> omega

/-! ## The middle of the range -/

/-- The middle of the range is nearly exact. -/
theorem center_spec (hle : r.low ≤ r.high) : r.contains ((r.low + r.high) / 2) = true ∧
    16 * (2 * units ((r.low + r.high) / 2) - (units r.low + units r.high)).natAbs ≤ 3 * unity := by
  obtain ⟨hlow, hlow'⟩ := hr.angle (contains_low hle)
  obtain ⟨hhigh, hhigh'⟩ := hr.angle (contains_high hle)
  have hunity := Number.unity_pos
  have hsum := (Number.near_self hlow).add (Number.near_self hhigh) (by omega)
  have herror := hsum.error
  refine ⟨contains_iff.mpr (Number.mean_between hle hsum.finite), ?_⟩
  -- half of the sum is rounded to a double that is no farther than a multiple of a sixteenth
  have hpos : (0 : Int) < 2 * Number.sixteenth := by
    have hsixteenth := Number.sixteenth_pos
    omega
  have hfloor := Int.ediv_mul_le (units (r.low + r.high)) hpos.ne'
  have hceiling := Int.lt_ediv_add_one_mul_self (units (r.low + r.high)) hpos
  have hunits := Number.unity_eq_sixteenths
  have hhalf := Number.rounds_div hsum.finite Number.two
  have hnumber := Number.isNaN_div_two hsum.finite
  generalize units (r.low + r.high) / (2 * (Number.sixteenth : Int)) = k at hfloor hceiling
  have hk : -2 ^ 53 ≤ k ∧ k < 2 ^ 53 := by
    constructor
    · exact Int.le_of_lt_add_one (lt_of_mul_lt_mul_right (by omega) hpos.le)
    · exact lt_of_mul_lt_mul_right (by omega) hpos.le
  have hclosest := hhalf.closest _ (Number.onScale_sixteenths (k := k) (by omega))
  rw [Number.unpack_pack_unpack hnumber, mul_assoc, Nat.cast_two,
    mul_comm (Number.sixteenth : Int)] at hclosest
  have hclosest' : (units ((r.low + r.high) / 2) * 2 - units (r.low + r.high)).natAbs ≤ _ := hclosest
  rw [add_mul, one_mul] at hceiling
  omega

/-- From an angle of a range that is not too large, it is not too far to its middle. -/
theorem below_center {a : Float} (ha : r.contains a = true)
    (hspan : r.high - r.low ≤ 4294967309) : Below 4294967310 ((r.low + r.high) / 2 - a) := by
  have hle := low_le_high ha
  have hunity := Number.unity_pos
  obtain ⟨hlow, hlow'⟩ := hr.angle (contains_low hle)
  obtain ⟨hhigh, hhigh'⟩ := hr.angle (contains_high hle)
  obtain ⟨hfinite, hbound⟩ := hr.angle ha
  obtain ⟨hcontains, herror⟩ := center_spec hr hle
  obtain ⟨hfinite', hbound'⟩ := hr.angle hcontains
  obtain ⟨hge, hle'⟩ := units_of_contains ha
  have hdifference := ((Number.near_self hhigh).sub (Number.near_self hlow) (by omega)).error
  have hturn := ((Number.near_self hfinite').sub (Number.near_self hfinite) (by omega)).error
  have hbound : units (4294967309 : Float) = 4294967309 * unity := by decide +kernel
  have hspan' := (Number.le_iff.mp hspan).2.2
  exact fun _ => by omega

/-- In a larger range there is an angle from which it is farther, though not too far to be rounded. -/
theorem exists_far_from_center (hle : r.low ≤ r.high) (hspan : 4294967311 ≤ r.high - r.low) :
    ∃ a, r.contains a = true ∧ ((r.low + r.high) / 2 - a).isFinite = true ∧
      (units ((r.low + r.high) / 2 - a)).natAbs ≤ 2 ^ 37 * unity ∧
      4294967310 * unity ≤ 2 * (units ((r.low + r.high) / 2 - a)).natAbs := by
  have hunity := Number.unity_pos
  obtain ⟨hlow, hlow'⟩ := hr.angle (contains_low hle)
  obtain ⟨hhigh, hhigh'⟩ := hr.angle (contains_high hle)
  obtain ⟨hcontains, herror⟩ := center_spec hr hle
  obtain ⟨hfinite, hbound⟩ := hr.angle hcontains
  have hdifference := ((Number.near_self hhigh).sub (Number.near_self hlow) (by omega)).error
  have hunits : units (4294967311 : Float) = 4294967311 * unity := by decide +kernel
  have hspan' := (Number.le_iff.mp hspan).2.2
  generalize (r.low + r.high) / 2 = center at *
  by_cases hlarge : units r.high - units r.low ≤ 2 ^ 37 * unity
  · -- the end of the range is far enough
    have hturn := (Number.near_self hfinite).sub (Number.near_self hlow) (by omega)
    have herror' := hturn.error
    exact ⟨r.low, contains_low hle, hturn.finite, by omega, by omega⟩
  · -- some angle on the way to the end is
    obtain ⟨hstep, hstep'⟩ : (4294967296 : Float).isFinite = true ∧
        units (4294967296 : Float) = 4294967296 * unity := by decide +kernel
    have hangle := (Number.near_self hfinite).sub (Number.near_self hstep) (by omega)
    have herror' := hangle.error
    have hturn := (Number.near_self hfinite).sub (Number.near_self hangle.finite) (by omega)
    have herror'' := hturn.error
    have hnumber := (Number.isFinite_iff.mp hangle.finite).1
    obtain ⟨hnumber', hnumber'', -⟩ := Number.le_iff.mp hle
    refine ⟨center - 4294967296, contains_iff.mpr ⟨?_, ?_⟩, hturn.finite, by omega, by omega⟩
    · exact Number.le_iff.mpr ⟨hnumber', hnumber, by omega⟩
    · exact Number.le_iff.mpr ⟨hnumber, hnumber'', by omega⟩

end WristRange

end BlockArm
