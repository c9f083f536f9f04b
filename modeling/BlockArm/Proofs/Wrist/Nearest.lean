/-
# The nearest angle of the range

Several equivalent angles are tried one after the other.  The servo is sent to the first of them that
is in the range up to the slack, moved into the range; and if there is none, to an end of the range.
No angle of the range is then closer to any of those that were tried than that end is to its nearest
one, although only the distances to the two ends are compared.  Distances are those of doubles: they
are rounded, and infinite where they overflow.

* `WristRange.IsNearest`: which of several angles is nearest to an end, as it is found;
* `WristRange.exists_nearest_finite`, `WristRange.exists_nearest`: there is one;
* `WristRange.exists_closest`: no angle of the range is closer than the end that is chosen;
* `WristRange.Serves`: what a setting is to several equivalent angles;
* `WristRange.serves_settle`, `WristRange.serves_follow_and_turn`: all settings serve the angles tried.
-/
import BlockArm.Proofs.Number.Distance
import BlockArm.Proofs.Number.Remainder
import BlockArm.Proofs.Wrist.Range

namespace BlockArm

open Number (distance? units)

/-! ## Distances -/

namespace Number

variable {a b c d x : Float}

theorem distance?_eq_some_iff :
    distance? a b = some d ↔ (a - b).abs.isFinite = true ∧ (a - b).abs = d := by
  unfold distance?
  simp only [Option.ite_none_right_eq_some, Option.some.injEq]

theorem distance?_eq_none_iff : distance? a b = none ↔ ¬ (a - b).abs.isFinite = true := by
  rw [Option.eq_none_iff_forall_ne_some]
  simp only [ne_eq, distance?_eq_some_iff, not_and]
  exact ⟨fun h hfinite => h _ hfinite rfl, fun h d hfinite => absurd hfinite h⟩

/-- A distance that is not finite is at the end of the scale. -/
theorem units_abs_of_infinite (hx : x.isNaN = false) (h : ¬ x.abs.isFinite = true) :
    units x.abs = top := by
  obtain ⟨hnumber, hunits⟩ := units_abs hx
  have hpos := abs_nonneg (units x)
  have hbound := (isStored x.abs).natAbs_units_le
  rw [isFinite_iff, not_and] at h
  have hinfinite := h hnumber
  rw [← units] at hbound
  omega

/-- Distances compare like doubles, those that count as none being infinite. -/
theorem atMost_distance? (hab : (a - b).isNaN = false) (hcd : (c - d).isNaN = false) :
    WristRange.atMost (distance? a b) (distance? c d) = true ↔ (a - b).abs ≤ (c - d).abs := by
  obtain ⟨hfirst, -⟩ := units_abs hab
  obtain ⟨hsecond, -⟩ := units_abs hcd
  by_cases hfinite' : (c - d).abs.isFinite = true
  · have hsmall := (isFinite_iff.mp hfinite').2
    rw [distance?_eq_some_iff.mpr ⟨hfinite', rfl⟩]
    by_cases hfinite : (a - b).abs.isFinite = true
    · rw [distance?_eq_some_iff.mpr ⟨hfinite, rfl⟩]
      exact decide_eq_true_iff
    · rw [distance?_eq_none_iff.mpr hfinite, le_iff, units_abs_of_infinite hab hfinite]
      exact iff_of_false Bool.false_ne_true fun h => by omega
  · have hbound := (isStored (a - b).abs).natAbs_units_le
    rw [← units] at hbound
    rw [distance?_eq_none_iff.mpr hfinite', le_iff, units_abs_of_infinite hcd hfinite']
    refine iff_of_true ?_ ⟨hfirst, hsecond, by omega⟩
    cases distance? a b <;> rfl

end Number

/-! ## The nearest of several angles -/

namespace WristRange

variable {r : WristRange Float} {limit : Float} {angles : List Float}

/-- The angle is the nearest one to an end of the range, and its distance is found. -/
structure IsNearest (limit : Float) (angles : List Float) (c : Float) : Prop where
  mem : c ∈ angles
  least : ∀ c' ∈ angles, (c - limit).abs ≤ (c' - limit).abs
  found : nearestTo limit angles = distance? c limit

/-- Where some of the distances are finite, the least of these is found. -/
theorem exists_nearest_finite (h : ∃ c ∈ angles, (c - limit).abs.isFinite = true) :
    ∃ c ∈ angles, (c - limit).abs.isFinite = true ∧ nearestTo limit angles = distance? c limit ∧
      ∀ c' ∈ angles, (c' - limit).abs.isFinite = true →
        units (c - limit).abs ≤ units (c' - limit).abs := by
  have hfound : ∀ d, d ∈ angles.filterMap (distance? · limit) ↔
      ∃ c ∈ angles, (c - limit).abs.isFinite = true ∧ (c - limit).abs = d := by
    simp only [List.mem_filterMap, Number.distance?_eq_some_iff, implies_true]
  cases hlist : angles.filterMap (distance? · limit) with
  | nil =>
    obtain ⟨c, hc, hfinite⟩ := h
    have hmem := (hfound _).mpr ⟨c, hc, hfinite, rfl⟩
    exact absurd (hlist ▸ hmem) List.not_mem_nil
  | cons b rest =>
    rw [hlist] at hfound
    have hnumbers : ∀ d ∈ b :: rest, d.isNaN = false := fun d hd => by
      obtain ⟨c, -, hfinite, rfl⟩ := (hfound d).mp hd
      exact (Number.isFinite_iff.mp hfinite).1
    obtain ⟨hb, hrest⟩ := List.forall_mem_cons.mp hnumbers
    obtain ⟨m, hm, hfold, hleast⟩ : ∃ m ∈ b :: rest, nearestTo limit angles = some m ∧
        ∀ d ∈ b :: rest, units m ≤ units d := by
      rw [nearestTo, show angles.filterMap (Degrees.distance? · limit) = b :: rest from hlist,
        List.foldl_cons]
      exact Number.exists_least (fun _ _ => rfl) rest b hb hrest
    obtain ⟨c, hc, hfinite, rfl⟩ := (hfound m).mp hm
    exact ⟨c, hc, hfinite, hfold.trans (Number.distance?_eq_some_iff.mpr ⟨hfinite, rfl⟩).symm,
      fun c' hc' hfinite' => hleast _ ((hfound _).mpr ⟨c', hc', hfinite', rfl⟩)⟩

/-- One of several angles is the nearest one.  Where all of them are infinitely far away, it is any of
them, and otherwise it is the one with the least distance that is finite. -/
theorem exists_nearest (hne : angles ≠ [])
    (hnumber : ∀ c ∈ angles, (c - limit).isNaN = false) : ∃ c, IsNearest limit angles c := by
  by_cases h : ∃ c ∈ angles, (c - limit).abs.isFinite = true
  · obtain ⟨c, hc, hfinite, hfound, hleast⟩ := exists_nearest_finite h
    refine ⟨c, hc, fun c' hc' => ?_, hfound⟩
    have hnumber' := (Number.units_abs (hnumber c' hc')).1
    refine Number.le_iff.mpr ⟨(Number.isFinite_iff.mp hfinite).1, hnumber', ?_⟩
    by_cases hfinite' : (c' - limit).abs.isFinite = true
    · exact hleast c' hc' hfinite'
    · have hsmall := (Number.isFinite_iff.mp hfinite).2
      rw [Number.units_abs_of_infinite (hnumber c' hc') hfinite']
      omega
  · have hfar : ∀ c ∈ angles, distance? c limit = none := fun c hc =>
      Number.distance?_eq_none_iff.mpr fun hfinite => h ⟨c, hc, hfinite⟩
    obtain ⟨c, hc⟩ := List.exists_mem_of_ne_nil angles hne
    refine ⟨c, hc, fun c' hc' => ?_, ?_⟩
    · rw [← Number.atMost_distance? (hnumber c hc) (hnumber c' hc'), hfar c' hc']
      cases distance? c limit <;> rfl
    · have hnone : angles.filterMap (Degrees.distance? · limit) = [] :=
        List.filterMap_eq_nil_iff.mpr hfar
      rw [hfar c hc, nearestTo, hnone]
      rfl

/-- No angle of the range is closer to any of several angles outside than the nearest end is to one of
them. -/
theorem exists_closest (hne : angles ≠ []) (hle : r.low ≤ r.high)
    (hfinite : ∀ c ∈ angles, c.isFinite = true) (hout : ∀ c ∈ angles, c ≤ r.low ∨ r.high ≤ c) :
    ∃ c ∈ angles, ∀ x, r.contains x = true → ∀ c' ∈ angles,
      (c - r.nearestEnd angles).abs ≤ (c' - x).abs := by
  obtain ⟨hlow, hhigh, -⟩ := Number.le_iff.mp hle
  have hnumber : ∀ {limit : Float}, limit.isNaN = false → ∀ c ∈ angles,
      (c - limit).isNaN = false := fun hlimit c hc => Number.isNaN_finite_sub (hfinite c hc) hlimit
  obtain ⟨l, hl⟩ := exists_nearest hne (hnumber hlow)
  obtain ⟨h, hh⟩ := exists_nearest hne (hnumber hhigh)
  -- the end on the side of an angle is closer to it than anything in the range
  have hends : ∀ x, r.contains x = true → ∀ c ∈ angles,
      (l - r.low).abs ≤ (c - x).abs ∨ (h - r.high).abs ≤ (c - x).abs := by
    intro x hx c hc
    obtain ⟨hge, hle'⟩ := contains_iff.mp hx
    rcases hout c hc with hbelow | habove
    · exact .inl (Number.le_trans (hl.least c hc)
        (Number.abs_sub_le_of_le (hfinite c hc) hbelow hge))
    · exact .inr (Number.le_trans (hh.least c hc)
        (Number.abs_sub_le_of_ge (hfinite c hc) habove hle'))
  have hcompare := Number.atMost_distance? (hnumber hlow l hl.mem) (hnumber hhigh h hh.mem)
  rw [← hl.found, ← hh.found] at hcompare
  unfold nearestEnd
  split
  · next hatMost =>
    have hfirst := hcompare.mp hatMost
    exact ⟨l, hl.mem, fun x hx c hc => (hends x hx c hc).elim id (Number.le_trans hfirst)⟩
  · next hatMost =>
    have hsecond : (h - r.high).abs ≤ (l - r.low).abs :=
      Number.le_of_not_le (Number.units_abs (hnumber hlow l hl.mem)).1
        (Number.units_abs (hnumber hhigh h hh.mem)).1 (mt hcompare.mpr hatMost)
    exact ⟨h, hh.mem, fun x hx c hc => (hends x hx c hc).elim (Number.le_trans hsecond) id⟩

/-! ## Settings -/

/-- Where no angle is met, the servo is sent as close to one of them as any of them is to anything in
the range. -/
theorem exists_closest_of_settle {target requested applied : Float} {others : List Float}
    (hle : r.low ≤ r.high) (h : r.settle target others = .clamped requested applied)
    (hfinite : ∀ c ∈ target :: others, c.isFinite = true) :
    ∃ c ∈ target :: others, ∀ x, r.contains x = true → ∀ c' ∈ target :: others,
      (c - applied).abs ≤ (c' - x).abs := by
  obtain ⟨-, rfl, hout⟩ := eq_of_settle_clamped h
  refine exists_closest (List.cons_ne_nil _ _) hle hfinite fun c hc => ?_
  have hnumber := (Number.isFinite_iff.mp (hfinite c hc)).1
  obtain ⟨hlow, hhigh, -⟩ := Number.le_iff.mp hle
  exact (lt_or_lt_of_not_admits hle hnumber (hout c hc)).imp
    (fun hlt => Number.le_iff.mpr ⟨hnumber, hlow, hlt.le⟩)
    (fun hgt => Number.le_iff.mpr ⟨hhigh, hnumber, hgt.le⟩)

/-- The angle `a` is `c`, moved into the range. -/
structure MovesTo (r : WristRange Float) (c a : Float) : Prop where
  below : c < r.low → a = r.low
  above : r.high < c → a = r.high
  inside : r.contains c = true → a = c

theorem movesTo_clamp (h : r.low < r.high) (c : Float) : r.MovesTo c (r.clamp c) where
  below hlt := if_pos hlt
  above hgt := by
    have hlt := (Number.lt_iff.mp h).2.2
    have hgt' := (Number.lt_iff.mp hgt).2.2
    have hge : ¬ c < r.low := fun hbelow => by
      have hbelow' := (Number.lt_iff.mp hbelow).2.2
      omega
    rw [clamp, if_neg hge, if_pos hgt]
  inside hc := by
    obtain ⟨hge, hle⟩ := units_of_contains hc
    have hbelow : ¬ c < r.low := fun hlt => by
      have hlt' := (Number.lt_iff.mp hlt).2.2
      omega
    have habove : ¬ r.high < c := fun hgt => by
      have hgt' := (Number.lt_iff.mp hgt).2.2
      omega
    rw [clamp, if_neg hbelow, if_neg habove]

/-- A setting serves several equivalent angles: the servo is sent to an angle of its range, and one of
the angles is met just if one is within the slack of the range.  It is then the first such angle, moved
into the range.  Otherwise, if the angles are finite, then one of them is as close to where the servo is
sent as any of them is to anything in the range. -/
structure Serves (r : WristRange Float) (angles : List Float) (s : WristSetting Float) : Prop where
  contains : r.contains s.angle = true
  exact_iff : (∃ a, s = .exact a) ↔ ∃ c ∈ angles, r.Within 1e-9 c
  first : ∀ a, s = .exact a → ∃ before c after, angles = before ++ c :: after ∧
    (∀ b ∈ before, ¬ r.Within 1e-9 b) ∧ r.Within 1e-9 c ∧ r.MovesTo c a
  closest : ∀ requested applied, s = .clamped requested applied →
    (∀ c ∈ angles, c.isFinite = true) → ∃ c ∈ angles, ∀ x, r.contains x = true →
      ∀ c' ∈ angles, (c - applied).abs ≤ (c' - x).abs

/-- A setting serves the angles that were tried. -/
theorem serves_settle (h : r.low < r.high) (target : Float) (others : List Float) :
    r.Serves (target :: others) (r.settle target others) := by
  have hle : r.low ≤ r.high := by
    obtain ⟨hlow, hhigh, hlt⟩ := Number.lt_iff.mp h
    exact Number.le_iff.mpr ⟨hlow, hhigh, hlt.le⟩
  refine ⟨contains_settle hle target others, ?_, fun a ha => ?_,
    fun requested applied => exists_closest_of_settle hle⟩
  · rw [exists_settle_exact_iff]
    simp only [admits_iff]
  · obtain ⟨c, hfind, rfl⟩ := find?_of_settle ha
    obtain ⟨hc, before, after, hsplit, hbefore⟩ := List.find?_eq_some_iff_append.mp hfind
    refine ⟨before, c, after, hsplit, fun b hb hwithin => ?_, admits_iff.mp hc, movesTo_clamp h c⟩
    have hnot := hbefore b hb
    rw [admits_iff.mpr hwithin] at hnot
    exact absurd hnot (by decide)

/-- **Moves and turns** send the servo to the first angle that is within the slack of its range, and
otherwise to the angle of the range that is closest to one of those that were tried. -/
theorem serves_follow_and_turn (h : r.low < r.high) (current delta degrees : Float) :
    r.Serves [current + delta, current + delta - 180] (r.follow current delta) ∧
      r.Serves [current + degrees, current + degrees - 180, current + degrees + 180]
        (r.turn current degrees) :=
  ⟨serves_settle h _ _, serves_settle h _ _⟩

/-- A move that asks for too much, and a turn by nothing that is a number. -/
theorem serves_overreached :
    let r : WristRange Float := ⟨12, 168⟩
    r.low < r.high ∧
      (r.Serves [100 + 75, 100 + 75 - 180] (r.follow 100 75) ∧
        r.Serves [100 + Number.notANumber, 100 + Number.notANumber - 180,
          100 + Number.notANumber + 180] (r.turn 100 Number.notANumber)) ∧
      (r.follow 100 75).isClamped = true ∧ (r.follow 100 75).angle = 168 ∧
      (r.turn 100 Number.notANumber).angle = 12 := by
  intro r
  have hends : r.low < r.high := by decide +kernel
  exact ⟨hends, serves_follow_and_turn hends 100 75 Number.notANumber, by decide +kernel,
    by decide +kernel, by decide +kernel⟩

end WristRange

end BlockArm
