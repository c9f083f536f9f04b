/-
# Wrist angles stay in range

Whatever angle is asked for, the one that the servo is sent lies in its range: `settle` moves an
angle that is admitted into the range, and otherwise chooses an end of it.  The slack of the test
can only admit more angles, so that an angle in the range is never clamped.

* `WristRange.find?_of_settle`, `WristRange.eq_of_settle_clamped`: what a setting says about the angles
  that were tried;
* `WristRange.Within`: an angle is in the range up to some slack;
* `WristRange.covers`: an angle is in the range, unless it is no number;
* `WristRange.contains_clamp`: a number is moved into the range;
* `WristRange.contains_settle`: a setting is in the range;
* `WristRange.not_contains_of_settle`: what was clamped was asked for from outside the range;
* `WristRange.contains_step`: a sweep does not fall below the range.
-/
import BlockArm.Wrist
import BlockArm.Proofs.Number.Rounding

namespace BlockArm

namespace WristRange

/-! ## Settings -/

section

variable {α : Type} [Degrees α] {r : WristRange α} {target a : α} {others : List α}

/-- An angle that was met is the first one that the range admits, moved into the range. -/
theorem find?_of_settle (h : r.settle target others = .exact a) :
    ∃ c, (target :: others).find? r.admits = some c ∧ r.clamp c = a := by
  unfold settle at h
  split at h
  · next c hfind => exact ⟨c, hfind, WristSetting.exact.inj h⟩
  · exact absurd h (by simp)

/-- An angle that was not met is the first one that was tried, none that was tried is admitted, and
the servo is sent to the end nearest to them. -/
theorem eq_of_settle_clamped {requested applied : α}
    (h : r.settle target others = .clamped requested applied) :
    requested = target ∧ applied = r.nearestEnd (target :: others) ∧
      ∀ a ∈ target :: others, ¬ r.admits a = true := by
  unfold settle at h
  split at h
  · exact absurd h (by simp)
  · next hnone =>
    obtain ⟨rfl, rfl⟩ := WristSetting.clamped.inj h
    exact ⟨rfl, rfl, List.find?_eq_none.mp hnone⟩

/-- An angle is met just if one of those that are tried is admitted. -/
theorem exists_settle_exact_iff : (∃ a, r.settle target others = .exact a) ↔
    ∃ c ∈ target :: others, r.admits c = true := by
  constructor
  · rintro ⟨a, h⟩
    obtain ⟨c, hfind, -⟩ := find?_of_settle h
    exact ⟨c, List.mem_of_find?_eq_some hfind, List.find?_some hfind⟩
  · rintro ⟨c, hc, hadmits⟩
    cases h : r.settle target others with
    | exact a => exact ⟨a, rfl⟩
    | clamped requested applied => exact absurd hadmits ((eq_of_settle_clamped h).2.2 c hc)

end

/-- An angle is in the range up to some slack. -/
def Within {α : Type} [Add α] [Sub α] [LE α] (r : WristRange α) (slack a : α) : Prop :=
  r.low - slack ≤ a ∧ a ≤ r.high + slack

/-! ## Angles in double precision -/

variable {r : WristRange Float} {a : Float}

theorem contains_iff : r.contains a = true ↔ r.low ≤ a ∧ a ≤ r.high := by
  simp only [contains, Bool.and_eq_true, decide_eq_true_eq]

theorem units_of_contains (h : r.contains a = true) :
    Number.units r.low ≤ Number.units a ∧ Number.units a ≤ Number.units r.high := by
  obtain ⟨hge, hle⟩ := contains_iff.mp h
  exact ⟨(Number.le_iff.mp hge).2.2, (Number.le_iff.mp hle).2.2⟩

theorem contains_low (h : r.low ≤ r.high) : r.contains r.low = true := by
  obtain ⟨hlow, -, -⟩ := Number.le_iff.mp h
  exact contains_iff.mpr ⟨Number.le_iff.mpr ⟨hlow, hlow, le_rfl⟩, h⟩

theorem contains_high (h : r.low ≤ r.high) : r.contains r.high = true := by
  obtain ⟨-, hhigh, -⟩ := Number.le_iff.mp h
  exact contains_iff.mpr ⟨h, Number.le_iff.mpr ⟨hhigh, hhigh, le_rfl⟩⟩

/-- The ends of a range are in order if there is anything between them. -/
theorem low_le_high (h : r.contains a = true) : r.low ≤ r.high := by
  obtain ⟨hge, hle⟩ := contains_iff.mp h
  obtain ⟨hlow, -, hge'⟩ := Number.le_iff.mp hge
  obtain ⟨-, hhigh, hle'⟩ := Number.le_iff.mp hle
  exact Number.le_iff.mpr ⟨hlow, hhigh, by omega⟩

/-- A number is moved into the range. -/
theorem contains_clamp (h : r.low ≤ r.high) (ha : a.isNaN = false) :
    r.contains (r.clamp a) = true := by
  obtain ⟨hlow, hhigh, -⟩ := Number.le_iff.mp h
  unfold clamp
  split
  · exact contains_low h
  · next hnotlow =>
    split
    · exact contains_high h
    · next hnothigh =>
      have hge : ¬ Number.units a < Number.units r.low := fun hlt =>
        hnotlow (Number.lt_iff.mpr ⟨ha, hlow, hlt⟩)
      have hle : ¬ Number.units r.high < Number.units a := fun hlt =>
        hnothigh (Number.lt_iff.mpr ⟨hhigh, ha, hlt⟩)
      exact contains_iff.mpr
        ⟨Number.le_iff.mpr ⟨hlow, ha, by omega⟩, Number.le_iff.mpr ⟨ha, hhigh, by omega⟩⟩

theorem admits_iff : r.admits a = true ↔ r.Within 1e-9 a := by
  simp only [admits, Bool.and_eq_true, decide_eq_true_eq]
  exact Iff.rfl

/-- What is admitted is a number. -/
theorem isNaN_of_admits (h : r.admits a = true) : a.isNaN = false :=
  (Number.le_iff.mp (admits_iff.mp h).1).2.1

/-- The slack can only admit more. -/
theorem admits_of_contains (h : r.contains a = true) : r.admits a = true := by
  obtain ⟨hge, hle⟩ := contains_iff.mp h
  obtain ⟨hlow, ha, hge'⟩ := Number.le_iff.mp hge
  obtain ⟨-, hhigh, hle'⟩ := Number.le_iff.mp hle
  have hslack : (0 : Float) ≤ 1e-9 := by decide +kernel
  have hfinite : (1e-9 : Float).isFinite = true := by decide +kernel
  obtain ⟨hlow', -, hdown⟩ :=
    Number.le_iff.mp (Number.sub_le hslack (Number.isNaN_sub hlow hfinite))
  obtain ⟨-, hhigh', hup⟩ :=
    Number.le_iff.mp (Number.le_add hslack (Number.isNaN_add hhigh hfinite))
  exact admits_iff.mpr
    ⟨Number.le_iff.mpr ⟨hlow', ha, by omega⟩, Number.le_iff.mpr ⟨ha, hhigh', by omega⟩⟩

/-- Angles that are not admitted lie below the range or above it. -/
theorem lt_or_lt_of_not_admits {a : Float} (hle : r.low ≤ r.high) (ha : a.isNaN = false)
    (h : ¬ r.admits a = true) :
    Number.units a < Number.units r.low ∨ Number.units r.high < Number.units a := by
  by_contra hinside
  obtain ⟨hlow, hhigh, -⟩ := Number.le_iff.mp hle
  refine h (admits_of_contains (contains_iff.mpr
    ⟨Number.le_iff.mpr ⟨hlow, ha, ?_⟩, Number.le_iff.mpr ⟨ha, hhigh, ?_⟩⟩)) <;> omega

/-- The nearest end is an end of the range. -/
theorem contains_nearestEnd (h : r.low ≤ r.high) (angles : List Float) :
    r.contains (r.nearestEnd angles) = true := by
  unfold nearestEnd
  split
  · exact contains_low h
  · exact contains_high h

/-- The angle that the servo is sent lies in the range. -/
theorem contains_settle (h : r.low ≤ r.high) (target : Float) (others : List Float) :
    r.contains (r.settle target others).angle = true := by
  unfold settle
  split
  · next a hfind => exact contains_clamp h (isNaN_of_admits (List.find?_some hfind))
  · exact contains_nearestEnd h _

/-- An angle in the range is never clamped. -/
theorem not_contains_of_settle {target requested applied : Float} {others : List Float}
    (h : r.settle target others = .clamped requested applied) :
    r.contains requested = false := by
  obtain ⟨rfl, -, hnone⟩ := eq_of_settle_clamped h
  exact Bool.eq_false_iff.mpr fun hcontains =>
    hnone _ List.mem_cons_self (admits_of_contains hcontains)

/-- Whether the range has the angle, if that is a number.  A wrist that has gripped where its bearing
is no number is believed to have none. -/
def covers (range : WristRange Float) (a : Float) : Bool := a.isNaN || range.contains a

theorem covers_iff : r.covers a = true ↔ a.isNaN = true ∨ r.contains a = true :=
  Bool.or_eq_true_iff

/-- The angle that the servo is sent is covered. -/
theorem covers_settle (h : r.low ≤ r.high) (target : Float) (others : List Float) :
    r.covers (r.settle target others).angle = true :=
  covers_iff.mpr (.inr (contains_settle h target others))

/-- A step upwards does not fall below the range. -/
theorem contains_step {step : Float} (h : r.contains a = true) (hstep : 0 ≤ step)
    (hle : a + step ≤ r.high) : r.contains (a + step) = true := by
  obtain ⟨hge, -⟩ := contains_iff.mp h
  obtain ⟨hnumber, -, -⟩ := Number.le_iff.mp hle
  obtain ⟨hlow, -, hge'⟩ := Number.le_iff.mp hge
  obtain ⟨-, -, hup⟩ := Number.le_iff.mp (Number.le_add hstep hnumber)
  exact contains_iff.mpr ⟨Number.le_iff.mpr ⟨hlow, hnumber, by omega⟩, hle⟩

end WristRange

end BlockArm
