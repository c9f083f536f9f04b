/-
# Quarter turns of a held block

A held block turns along with the servo, rounded to quarter turns.  The servo may have been sent half
a turn farther or less far than was asked for.  Half a turn makes no difference to a block, and none
to the rounding either, except halfway between two quarter turns: what lies there is rounded away
from zero, so that it matters to which side of zero the servo turns.

* `quarterTurns`: a whole number of degrees rounded to quarter turns;
* `exists_snapToQuarter_near`: what the turn of a servo is rounded to;
* `Scene.turned_as_asked_iff`: when a held block turns as far as was asked for.
-/
import BlockArm.Proofs.Run.Turning
import BlockArm.Proofs.Wrist.Aliases

namespace BlockArm

open Number (units unity Near wholeQuotient)

/-! ## Rounding to quarter turns -/

/-- The quarter turns nearest to a whole number of degrees; it is said whether what lies halfway
between two of them goes up. -/
def quarterTurns (n : Int) (up : Prop) [Decidable up] : Int :=
  if n % 90 = 45 ∧ ¬ up then n / 90 else (n + 45) / 90

section

variable {n : Int} {up : Prop} [Decidable up]

theorem quarterTurns_of_up (h : up) : quarterTurns n up = (n + 45) / 90 :=
  if_neg fun hdown => hdown.2 h

theorem quarterTurns_of_not_up (hhalf : n % 90 = 45) (h : ¬ up) : quarterTurns n up = n / 90 :=
  if_pos ⟨hhalf, h⟩

theorem quarterTurns_of_ne (hhalf : n % 90 ≠ 45) : quarterTurns n up = (n + 45) / 90 :=
  if_neg fun hdown => hhalf hdown.1

end

/-- A turn of about so many degrees goes up from halfway between two quarter turns: it is a little
larger, or it is so large exactly, and positive. -/
def GoesUp (x : Float) (n : Int) : Prop :=
  n * unity < units x ∨ units x = n * unity ∧ 0 < n

instance (x : Float) (n : Int) : Decidable (GoesUp x n) := inferInstanceAs (Decidable (_ ∨ _))

/-- The quarter turns nearest to an angle, by the halves around them. -/
theorem wholeQuotient_ninety {x k : Int}
    (hpos : 0 ≤ x → 90 * (k * unity) - 45 * unity ≤ x ∧ x < 90 * (k * unity) + 45 * unity)
    (hneg : x < 0 → 90 * (k * unity) - 45 * unity < x ∧ x ≤ 90 * (k * unity) + 45 * unity) :
    wholeQuotient x (90 * unity) = k := by
  have hlow : (2 * k - 1) * ((90 * unity : Nat) : Int) =
      2 * (90 * (k * unity) - 45 * unity) := by push_cast; ring
  have hhigh : (2 * k + 1) * ((90 * unity : Nat) : Int) =
      2 * (90 * (k * unity) + 45 * unity) := by push_cast; ring
  refine Number.wholeQuotient_eq (Nat.mul_pos (by decide) Number.unity_pos) ?_ ?_ <;>
    rw [hlow, hhigh] <;> omega

/-- Halfway between two quarter turns, the turn itself decides. -/
theorem wholeQuotient_of_half {x : Float} {q : Int} (h : Near 5 x ((90 * q + 45) * unity)) :
    wholeQuotient (units x) (90 * unity) = if GoesUp x (90 * q + 45) then q + 1 else q := by
  have herror := h.error
  have hunity := Number.unity_pos
  have hsplit : (90 * q + 45) * (unity : Int) = 90 * (q * unity) + 45 * unity := by ring
  have hsign : 0 < 90 * q + 45 ↔ 0 < (90 * q + 45) * (unity : Int) :=
    (mul_pos_iff_of_pos_right (by exact_mod_cast hunity)).symm
  have hne : (90 * q + 45) * (unity : Int) ≠ 0 := mul_ne_zero (by omega) (by omega)
  have hiff : GoesUp x (90 * q + 45) ↔ 90 * (q * unity) + 45 * unity < units x ∨
      units x = 90 * (q * unity) + 45 * unity ∧ 0 < 90 * (q * unity) + 45 * (unity : Int) := by
    rw [GoesUp, hsign, hsplit]
  rw [hsplit] at herror hne
  by_cases hup : GoesUp x (90 * q + 45)
  · rw [if_pos hup]
    rw [hiff] at hup
    refine wholeQuotient_ninety ?_ ?_ <;> rw [add_mul, one_mul] <;> omega
  · rw [if_neg hup]
    rw [hiff] at hup
    exact wholeQuotient_ninety (by omega) (by omega)

/-- A degree or more away from that, it does not matter. -/
theorem wholeQuotient_of_between {x : Float} {q r : Int} (hlow : -44 ≤ r) (hhigh : r ≤ 44)
    (h : Near 5 x ((90 * q + r) * unity)) : wholeQuotient (units x) (90 * unity) = q := by
  have herror := h.error
  have hunity := Number.unity_pos
  have hsplit : (90 * q + r) * (unity : Int) = 90 * (q * unity) + r * unity := by ring
  have hlow' : -44 * (unity : Int) ≤ r * unity :=
    mul_le_mul_of_nonneg_right hlow (Int.natCast_nonneg _)
  have hhigh' : r * (unity : Int) ≤ 44 * unity :=
    mul_le_mul_of_nonneg_right hhigh (Int.natCast_nonneg _)
  rw [hsplit] at herror
  exact wholeQuotient_ninety (by omega) (by omega)

/-- A turn of about so many degrees is rounded like these. -/
theorem wholeQuotient_near {x : Float} {n : Int} (h : Near 5 x (n * unity)) :
    wholeQuotient (units x) (90 * unity) = quarterTurns n (GoesUp x n) := by
  by_cases hhalf : n % 90 = 45
  · obtain ⟨q, rfl⟩ : ∃ q, n = 90 * q + 45 := ⟨n / 90, by omega⟩
    rw [wholeQuotient_of_half h]
    by_cases hup : GoesUp x (90 * q + 45)
    · rw [if_pos hup, quarterTurns_of_up hup]
      omega
    · rw [if_neg hup, quarterTurns_of_not_up hhalf hup]
      omega
  · obtain ⟨q, r, rfl, hlow, hhigh⟩ : ∃ q r, n = 90 * q + r ∧ -44 ≤ r ∧ r ≤ 44 :=
      ⟨(n + 45) / 90, n - 90 * ((n + 45) / 90), by omega, by omega, by omega⟩
    rw [wholeQuotient_of_between hlow hhigh h, quarterTurns_of_ne hhalf]
    omega

/-- What the turn of a servo is rounded to, in degrees. -/
theorem exists_snapToQuarter_near {x : Float} {n : Int} (h : Near 5 x (n * unity)) (hn : IsInt32 n) :
    ∃ m, snapToQuarter? x = some m ∧ m.toInt = quarterTurns n (GoesUp x n) * 90 := by
  obtain ⟨hlow, hhigh⟩ := hn
  have hquarters : IsInt32 (quarterTurns n (GoesUp x n) * 90) := by
    unfold quarterTurns
    split <;> exact ⟨by omega, by omega⟩
  have hsmall : (units x).natAbs ≤ 2 ^ 37 * unity := by
    have herror := h.error
    have hlarge : (n * unity).natAbs ≤ 2 ^ 31 * unity := by
      rw [Int.natAbs_mul, Int.natAbs_natCast]
      exact Nat.mul_le_mul_right _ (by omega)
    omega
  have hnearest := Number.toInt_nearestInt32_div h.finite hsmall
  rw [wholeQuotient_near h] at hnearest
  rw [snapToQuarter?, hnearest]
  exact exists_int32 hquarters

/-- Half turns do not change which of two quarter turns is nearest, and halfway between them it is
said in either case. -/
theorem quarterTurns_alike_iff (n k : Int) (up up' : Prop) [Decidable up] [Decidable up'] :
    2 ∣ quarterTurns (n + 180 * k) up - quarterTurns n up' ↔ n % 90 ≠ 45 ∨ (up' ↔ up) := by
  by_cases hhalf : n % 90 = 45
  · have hhalf' : (n + 180 * k) % 90 = 45 := by omega
    by_cases hup : up <;> by_cases hup' : up'
    · rw [quarterTurns_of_up hup, quarterTurns_of_up hup']
      exact iff_of_true (by omega) (.inr (iff_of_true hup' hup))
    · rw [quarterTurns_of_up hup, quarterTurns_of_not_up hhalf hup']
      exact iff_of_false (by omega) (by tauto)
    · rw [quarterTurns_of_not_up hhalf' hup, quarterTurns_of_up hup']
      exact iff_of_false (by omega) (by tauto)
    · rw [quarterTurns_of_not_up hhalf' hup, quarterTurns_of_not_up hhalf hup']
      exact iff_of_true (by omega) (.inr (iff_of_false hup' hup))
  · rw [quarterTurns_of_ne (by omega), quarterTurns_of_ne hhalf]
    exact iff_of_true (by omega) (.inl hhalf)

/-- Quarter turns are not changed by snapping, up to full turns. -/
theorem BlockType.snap_of_toInt {m : Int32} {q : Int} (h : m.toInt = q * 90) :
    BlockType.snap m = q % 4 * 90 := by
  rw [snap, h]
  omega

/-- A block is turned alike by numbers of quarter turns that differ by an even one, and every square
block is turned alike by all. -/
theorem Block.Shaped.turnBy_quarters_iff {b : Block} (h : b.Shaped) {m m' : Int32} {q q' : Int}
    (hm : m.toInt = q * 90) (hm' : m'.toInt = q' * 90) :
    b.turnBy m = b.turnBy m' ↔ b.blockType.width = b.blockType.depth ∨ 2 ∣ q - q' := by
  rw [h.turnBy_eq_iff, BlockType.snap_of_toInt hm, BlockType.snap_of_toInt hm',
    BlockType.symmetry]
  by_cases hsquare : b.blockType.width = b.blockType.depth
  · rw [if_pos hsquare, show (90 : Int32).toInt = 90 from rfl]
    exact iff_of_true (by omega) (.inl hsquare)
  · rw [if_neg hsquare, show (180 : Int32).toInt = 180 from rfl]
    simp only [hsquare, false_or]
    omega

/-! ## Turns of the wrist -/

/-- A setting is exact unless the range was left. -/
theorem WristSetting.eq_exact {setting : WristSetting Float} (h : setting.isClamped = false) :
    setting = .exact setting.angle := by
  cases setting with
  | exact a => rfl
  | clamped requested applied => exact absurd h.symm Bool.false_ne_true

variable {σ : Type}

/-- A turn whose angle is met succeeds if the servo does and the turn of the servo can be rounded, and
then that is its effect. -/
theorem Station.ensures_turn_exact {st : Station} {d : Device σ} {device : σ} {arm : ArmState}
    (line : Nat) {degrees m : Int32} {a : Float}
    (hexact : st.workspace.turn arm.wrist (Number.ofInt32 degrees) = .exact a)
    (hm : snapToQuarter? (a - arm.wrist) = some m)
    (hdone : (d.perform (.setWrist a) device).1.answer = .done) :
    (st.plan arm ⟨line, .turn degrees⟩).Ensures d
      (fun effect _ arm' => effect = .turn m ∧ arm' = { arm with wrist := a })
      (fun _ _ => False) device arm := by
  refine (?_ : (st.turn arm degrees).Ensures d _ _ device arm)
  unfold turn
  simp only [hexact, Plan.bind_eq, Plan.ensures_bind, Plan.ensures_assume, Plan.ensures_warnOf,
    WristSetting.angle_exact, Plan.act, Plan.Ensures, hdone, hm, Plan.checked]
  exact ⟨rfl, rfl⟩

namespace Scene

variable {st : Station} {d : Device σ} {s : Scene σ} {b : Block}

/-- Such a turn turns a held block along. -/
theorem perform_turn_exact (line : Nat) {degrees m : Int32} {a : Float}
    (hheld : s.held? = some b) (hshaped : b.Shaped)
    (hexact : st.workspace.turn s.rig.arm.wrist (Number.ofInt32 degrees) = .exact a)
    (hm : snapToQuarter? (a - s.rig.arm.wrist) = some m)
    (hdone : (d.perform (.setWrist a) s.rig.device).1.answer = .done) :
    ∃ t, perform st d ⟨line, .turn degrees⟩ s = (.value (), t) ∧
      t.rig.arm = { s.rig.arm with wrist := a } ∧
      t.held? = some (b.turnBy m) := by
  obtain ⟨w, hworld, hw⟩ := Option.bind_eq_some_iff.mp hheld
  obtain ⟨rig, world⟩ := s
  obtain rfl : world = some w := hworld
  obtain ⟨_, after, hexec, rfl, harm⟩ := Plan.exists_value_of_ensures (r := rig)
    (Station.ensures_turn_exact line hexact hm hdone)
  simp only [perform, hexec, affect, World.apply_turn_held hw hshaped]
  exact ⟨_, rfl, harm, rfl⟩

/-- **Turns as asked for.**  The servo takes the angle asked for or one half a turn away from it, so
that it turns by about that many degrees.  A held block turns along, rounded to quarter turns, and
that comes to what was asked for, rounded likewise, just if the block is square, or what was asked
for does not lie halfway between two quarter turns, or it is rounded to the same side as the turn of
the servo. -/
theorem turned_as_asked_iff {line : Nat} {degrees : Int32} {a : Float}
    (hrange : st.workspace.wrist.Moderate)
    (hwrist : st.workspace.wrist.contains s.rig.arm.wrist = true)
    (hheld : s.held? = some b) (hshaped : b.Shaped)
    (hexact : st.workspace.turn s.rig.arm.wrist (Number.ofInt32 degrees) = .exact a)
    (hdone : (d.perform (.setWrist a) s.rig.device).1.answer = .done) :
    ∃ (asked : Int32) (k : Int), snapToQuarter? (Number.ofInt32 degrees) = some asked ∧
      (k = 0 ∨ k = -1 ∧ 0 < degrees.toInt ∨ k = 1 ∧ degrees.toInt < 0) ∧
      Near 5 (a - s.rig.arm.wrist) ((degrees.toInt + 180 * k) * unity) ∧
      ∃ t b', perform st d ⟨line, .turn degrees⟩ s = (.value (), t) ∧
        t.rig.arm = { s.rig.arm with wrist := a } ∧ t.held? = some b' ∧
        (b' = b.turnBy asked ↔
          b.blockType.width = b.blockType.depth ∨ degrees.toInt % 90 ≠ 45 ∨
            (0 < degrees.toInt ↔ GoesUp (a - s.rig.arm.wrist) (degrees.toInt + 180 * k))) := by
  obtain ⟨k, hk, hnear⟩ := WristRange.near_turn hrange hwrist hexact
  have hlow := degrees.le_toInt
  have hhigh := degrees.toInt_lt
  have hself := Number.near_self (Number.isFinite_ofInt32 degrees)
  rw [Number.units_ofInt32] at hself
  obtain ⟨asked, hsnap, hasked⟩ :=
    exists_snapToQuarter_near (hself.mono (by decide)) (isInt32_toInt degrees)
  obtain ⟨served, hsnap', hserved⟩ := exists_snapToQuarter_near hnear ⟨by omega, by omega⟩
  obtain ⟨t, hperform, harm, hturned⟩ :=
    perform_turn_exact line hheld hshaped hexact hsnap' hdone
  refine ⟨asked, k, hsnap, hk, hnear, t, _, hperform, harm, hturned, ?_⟩
  have hup : GoesUp (Number.ofInt32 degrees) degrees.toInt ↔ 0 < degrees.toInt := by
    rw [GoesUp, Number.units_ofInt32]
    constructor
    · exact fun h => h.elim (fun hlt => absurd hlt (lt_irrefl _)) And.right
    · exact fun h => .inr ⟨rfl, h⟩
  rw [hshaped.turnBy_quarters_iff hserved hasked, quarterTurns_alike_iff, hup]

/-- The board is turned by 120 degrees, for which the servo goes 60 degrees back. -/
theorem turned_as_asked_boardGripped : ∃ a t asked,
    Station.standard.workspace.turn boardGripped.rig.arm.wrist (Number.ofInt32 120) = .exact a ∧
      (a == 30) = true ∧
      perform .standard .recorder ⟨1, .turn 120⟩ boardGripped = (.value (), t) ∧
      snapToQuarter? (Number.ofInt32 120) = some asked ∧
      t.held? = some ((Block.place 0 ⟨"board", 2, 1⟩ ⟨3, 8, 2⟩ 0).turnBy asked) := by
  have hexact := WristSetting.eq_exact
    (show (Station.standard.workspace.turn boardGripped.rig.arm.wrist
      (Number.ofInt32 120)).isClamped = false by decide +kernel)
  obtain ⟨asked, k, hasked, -, -, t, b', hperform, -, hheld, hiff⟩ := turned_as_asked_iff
    (s := boardGripped) (d := .recorder) (by decide +kernel) (by decide +kernel) rfl
    (Block.shaped_place 0 ⟨"board", 2, 1⟩ ⟨3, 8, 2⟩ 0) hexact rfl
  obtain rfl := hiff.mpr (.inr (.inl (by decide)))
  exact ⟨_, t, asked, hexact, by decide +kernel, hperform, hasked, hheld⟩

/-- A statement has succeeded if its outcome says so. -/
theorem perform_eq_of_outcome (st : Station) (d : Device σ) (statement : Statement) (s : Scene σ)
    (h : ((perform st d statement s).1 matches .value ()) = true) :
    perform st d statement s = (.value (), (perform st d statement s).2) := by
  generalize perform st d statement s = out at h ⊢
  obtain ⟨outcome, t⟩ := out
  cases outcome with
  | value u => rfl
  | fault fault => exact absurd h Bool.false_ne_true
  | broken cause => exact absurd h Bool.false_ne_true

/-- The board is to turn by 45 degrees, which is rounded to a quarter turn.  But the wrist is near the
end of its range, so that the servo goes 135 degrees back, which is rounded to half a turn, and the
board stays as it was. -/
theorem board_not_turned_as_asked : ∃ a s t,
    perform .standard .recorder ⟨1, .turn 60⟩ boardGripped = (.value (), s) ∧
      Station.standard.workspace.wrist.contains s.rig.arm.wrist = true ∧
      Station.standard.workspace.turn s.rig.arm.wrist (Number.ofInt32 45) = .exact a ∧
      perform .standard .recorder ⟨2, .turn 45⟩ s = (.value (), t) ∧
      (snapToQuarter? (Number.ofInt32 45)).bind (fun asked =>
        s.held?.map fun b => (b.turnBy asked).rotation) = some 0 ∧
      t.held?.map Block.rotation = some 90 := by
  exact ⟨_, _, _, perform_eq_of_outcome _ _ _ _ (by decide +kernel), by decide +kernel,
    WristSetting.eq_exact (by decide +kernel), perform_eq_of_outcome _ _ _ _ (by decide +kernel),
    by decide +kernel, by decide +kernel⟩

end Scene

end BlockArm
