/-
# The wrist along a route

A move turns the wrist along with the bearing, so that a held block keeps its orientation: the wrist
angle minus the bearing stays the same.  In exact arithmetic it changes by half turns only, and by the
slack of the range for each move, whatever the bearings of the places are.  So the orientation that a
route ends with depends on where the route ends, and not on the places in between.

* `WristRange.move`, `WristRange.along?`: the wrist on a move, and at the end of a route;
* `bearingChange_modEq`: bearings change by what lies between them, up to half turns;
* `WristRange.agree_of_move`, `WristRange.agree_along`: the wrist angle minus the bearing, after a move
  and after a route;
* `WristRange.route_agree`: routes that end in one place.
-/
import BlockArm.Reach
import BlockArm.Proofs.Wrist.Exact

namespace BlockArm

/-! ## Moves -/

namespace WristRange

variable {α P : Type} [Degrees α]

/-- The setting on the way from one place to another, with the bearings of places given. -/
def move (r : WristRange α) (bearing : P → α) (wrist : α) (old new : P) : WristSetting α :=
  r.follow wrist (bearingChange (bearing old) (bearing new))

/-- The wrist angle at the end of a route, if the angle of every move on it is met.  Each move starts
with the angle and at the place that the one before it ended with. -/
def along? (r : WristRange α) (bearing : P → α) : α → P → List P → Option α
  | wrist, _, [] => some wrist
  | wrist, place, next :: route =>
    match r.move bearing wrist place next with
    | .exact a => r.along? bearing a next route
    | .clamped .. => none

/-- A route starts with a move that is met. -/
theorem along?_cons {r : WristRange α} {bearing : P → α} {wrist a : α} {place next : P}
    {route : List P} (h : r.along? bearing wrist place (next :: route) = some a) :
    ∃ b, r.move bearing wrist place next = .exact b ∧ r.along? bearing b next route = some a := by
  rw [along?] at h
  split at h
  · next b hb => exact ⟨b, hb, h⟩
  · exact absurd h (by simp)

end WristRange

/-- The arm moves with the bearings seen from its base. -/
theorem Workspace.follow_eq_move (w : Workspace) (current : Float) (old new : Spot) :
    w.follow current old new = w.wrist.move Spot.bearing current old new := rfl

/-! ## Moves in exact arithmetic -/

open Degrees (exact Agree)

variable {α P : Type} [Field α] [LinearOrder α] [FloorRing α]

/-- Bearings change by what lies between them, up to half turns. -/
theorem bearingChange_modEq (old new : α) :
    @bearingChange α (exact α) old new ≡ new - old [PMOD 180] := by
  have hreduced : new - old - 180 * ⌊(new - old) / 180⌋ ≡ new - old [PMOD 180] := by
    refine AddCommGroup.modEq_iff_zsmul'.mpr ⟨⌊(new - old) / 180⌋, ?_⟩
    rw [zsmul_eq_mul]
    ring
  unfold bearingChange
  simp only [Degrees.whole_halfTurn]
  split
  · exact (Degrees.sub_halfTurn_modEq _).trans hreduced
  · exact hreduced

namespace WristRange

variable [IsStrictOrderedRing α] {r : WristRange α} {bearing : P → α} {wrist a : α}

/-- The wrist angle at the end of a route, without rounding. -/
def alongExact (r : WristRange α) (bearing : P → α) (wrist : α) (start : P) (route : List P) :
    Option α :=
  @along? α P (exact α) r bearing wrist start route

/-- A move keeps the wrist angle minus the bearing, up to half turns and the slack. -/
theorem agree_of_move {old new : P} (h : @move α P (exact α) r bearing wrist old new = .exact a) :
    Agree 1e-9 (a - bearing new) (wrist - bearing old) := by
  have hmet : Agree 1e-9 a (wrist + @bearingChange α (exact α) (bearing old) (bearing new)) := by
    refine agree_of_settle h fun c hc => ?_
    rw [List.mem_singleton.mp hc, Degrees.whole_halfTurn]
    exact Degrees.sub_halfTurn_modEq _
  have hchange := hmet.congr ((bearingChange_modEq (bearing old) (bearing new)).add_left wrist)
  have hagree := hchange.sub_right (bearing new)
  rwa [add_sub_assoc, sub_sub_cancel_left, ← sub_eq_add_neg] at hagree

/-- A route keeps the wrist angle minus the bearing, up to half turns and the slack for each move. -/
theorem agree_along {start : P} {route : List P}
    (h : r.alongExact bearing wrist start route = some a) :
    Agree ((route.length : α) * 1e-9) (a - bearing (route.getLastD start)) (wrist - bearing start) := by
  induction route generalizing wrist start with
  | nil =>
    obtain rfl : wrist = a := Option.some.inj h
    rw [List.length_nil, Nat.cast_zero, zero_mul]
    exact Agree.refl _
  | cons next route ih =>
    obtain ⟨b, hb, hrest⟩ := @along?_cons α P (exact α) _ _ _ _ _ _ _ h
    have hagree := (ih hrest).trans (agree_of_move hb)
    rw [List.length_cons, Nat.cast_succ, add_one_mul, List.getLastD_cons]
    exact hagree

/-- **Routes.**  A route changes the wrist angle minus the bearing by half turns only, up to the slack for
each of its moves.  So a route that comes back to its start brings the wrist back to an equivalent
angle, and two routes from one place to another turn the wrist alike. -/
theorem route_agree {start : P} {route : List P}
    (h : r.alongExact bearing wrist start route = some a) :
    Agree ((route.length : α) * 1e-9) (a - bearing (route.getLastD start))
        (wrist - bearing start) ∧
      (route.getLastD start = start → Agree ((route.length : α) * 1e-9) a wrist) ∧
      ∀ other wrist' a', r.alongExact bearing wrist' start other = some a' →
        other.getLastD start = route.getLastD start →
          Agree (((route.length + other.length : ℕ) : α) * 1e-9) (a - wrist) (a' - wrist') := by
  have hroute := agree_along h
  refine ⟨hroute, fun hback => ?_, fun other wrist' a' hother hend => ?_⟩
  · rw [hback] at hroute
    have hagree := hroute.sub_right (-bearing start)
    rwa [sub_neg_eq_add, sub_neg_eq_add, sub_add_cancel, sub_add_cancel] at hagree
  · have hother := agree_along hother
    rw [hend] at hother
    -- the bearings are the same for both routes, and cancel
    have hwrists := hroute.sub hother
    rw [sub_sub_sub_cancel_right, sub_sub_sub_cancel_right] at hwrists
    have hagree := hwrists.sub_right (wrist - a')
    rw [Nat.cast_add, add_mul]
    rwa [show a - a' - (wrist - a') = a - wrist by ring,
      show wrist - wrist' - (wrist - a') = a' - wrist' by ring] at hagree

/-- A way around that brings the wrist back half a turn on, and one there and back again. -/
theorem route_agree_around :
    let r : WristRange ℚ := ⟨0, 270⟩
    r.alongExact id 60 0 [80, 100, 0] = some 240 ∧ r.alongExact id 200 0 [45, 0] = some 200 ∧
      Agree (3 * 1e-9 : ℚ) (240 - 0) (60 - 0) ∧ Agree (3 * 1e-9 : ℚ) 240 60 ∧
      Agree (5 * 1e-9 : ℚ) (240 - 60) (200 - 200) := by
  intro r
  have haround : r.alongExact id 60 0 [80, 100, 0] = some 240 := by decide +kernel
  have hback : r.alongExact id 200 0 [45, 0] = some 200 := by decide +kernel
  obtain ⟨hroute, hreturn, hother⟩ := route_agree haround
  exact ⟨haround, hback, hroute, hreturn rfl, hother [45, 0] 200 200 hback rfl⟩

end WristRange

end BlockArm
