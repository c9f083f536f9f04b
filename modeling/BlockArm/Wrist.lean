/-
# Wrist angles

The wrist servo has a range of angles, and the gripper looks the same after half a turn.  A wanted
angle is therefore replaced by an equivalent one where that helps (`settle`), and by the nearest
end of the range where nothing does.

The rules need little of the numbers that measure angles: sums, differences, comparisons, a
distance, and the remainder modulo half a turn.  `Degrees` names these, so that the rules hold for
doubles (`instDegreesFloat`), which the arm uses, and for exact numbers alike.
-/
import BlockArm.Number.Plane

namespace BlockArm

/-! ## Numbers that measure angles -/

/-- The arithmetic that the wrist rules are stated in. -/
class Degrees (α : Type) extends Add α, Sub α, LE α, LT α where
  /-- Whether one angle is at most another can be decided. -/
  decidableLE : DecidableLE α
  /-- Whether one angle is below another can be decided. -/
  decidableLT : DecidableLT α
  /-- A whole number of degrees. -/
  whole : Int → α
  /-- The slack for angles that reach an end of the range up to rounding. -/
  slack : α
  /-- The distance between two angles, where it is a number. -/
  distance? : α → α → Option α
  /-- The remainder modulo half a turn, from zero up to half a turn. -/
  modHalfTurn : α → α

attribute [reducible, instance] Degrees.decidableLE Degrees.decidableLT

/-- The distance between two doubles; an infinite one counts as none. -/
def Number.distance? (a b : Float) : Option Float :=
  let d := (a - b).abs
  if d.isFinite then some d else none

/-- Angles in double precision. -/
instance instDegreesFloat : Degrees Float where
  decidableLE := fun a b => Float.decLe a b
  decidableLT := fun a b => Float.decLt a b
  whole := Float.ofInt
  slack := 1e-9
  distance? := Number.distance?
  modHalfTurn := fun x => Number.remainder x 180

/-! ## The range of the servo -/

/-- The ends of the servo range. -/
structure WristRange (α : Type) where
  low : α
  high : α

/-- How a wanted angle was met. -/
inductive WristSetting (α : Type) where
  /-- The wanted angle or an equivalent one. -/
  | exact (angle : α)
  /-- No equivalent angle is in the range; the nearest end is used for the one asked for. -/
  | clamped (requested applied : α)

namespace WristSetting

variable {α : Type}

/-- The angle to send to the servo. -/
def angle : WristSetting α → α
  | exact a => a
  | clamped _ applied => applied

/-- Whether the range was left. -/
def isClamped : WristSetting α → Bool
  | exact _ => false
  | clamped .. => true

@[simp] theorem angle_exact (a : α) : (exact a).angle = a := rfl

@[simp] theorem angle_clamped (r a : α) : (clamped r a).angle = a := rfl

end WristSetting

namespace WristRange

variable {α : Type} [Degrees α]

/-- Whether an angle lies in the range. -/
def contains (r : WristRange α) (a : α) : Bool := r.low ≤ a && a ≤ r.high

/-- Whether an angle lies in the range up to the slack. -/
def admits (r : WristRange α) (a : α) : Bool :=
  r.low - Degrees.slack ≤ a && a ≤ r.high + Degrees.slack

/-- The angle moved into the range. -/
def clamp (r : WristRange α) (a : α) : α :=
  if a < r.low then r.low else if r.high < a then r.high else a

/-- The distance from an end of the range to the nearest of several angles. -/
def nearestTo (limit : α) (angles : List α) : Option α :=
  (angles.filterMap (Degrees.distance? · limit)).foldl (fun best d => match best with
    | none => some d
    | some b => if d < b then some d else some b) none

/-- Whether the first distance is at most the second; no distance is farther than any. -/
def atMost : Option α → Option α → Bool
  | _, none => true
  | none, some _ => false
  | some a, some b => a ≤ b

/-- The end of the range that is nearest to one of the angles, the lower end if both are. -/
def nearestEnd (r : WristRange α) (angles : List α) : α :=
  if atMost (nearestTo r.low angles) (nearestTo r.high angles) then r.low else r.high

/-- The first of several equivalent angles that the range admits, moved into the range; the nearest
end if there is none. -/
def settle (r : WristRange α) (target : α) (others : List α) : WristSetting α :=
  match (target :: others).find? r.admits with
  | some a => .exact (r.clamp a)
  | none => .clamped target (r.nearestEnd (target :: others))

/-- The setting after a rotation by `delta` that should keep a held block's orientation. -/
def follow (r : WristRange α) (current delta : α) : WristSetting α :=
  let target := current + delta
  r.settle target [target - Degrees.whole 180]

/-- The setting after an explicit turn by `degrees`. -/
def turn (r : WristRange α) (current degrees : α) : WristSetting α :=
  let target := current + degrees
  r.settle target [target - Degrees.whole 180, target + Degrees.whole 180]

/-! ## Ranges that may be inverted -/

/-- The angle moved into the range; there is none to move it into unless the ends are in order. -/
def clamp? (r : WristRange α) (a : α) : Option α :=
  if r.low ≤ r.high then some (r.clamp a) else none

/-- A setting of a range that may be inverted: an exact one has been moved into the range. -/
def checked? (r : WristRange α) : WristSetting α → Option (WristSetting α)
  | .exact a => if r.low ≤ r.high then some (.exact a) else none
  | .clamped requested applied => some (.clamped requested applied)

end WristRange

/-! ## Bearings -/

/-- The change from one bearing to another, reduced modulo half a turn to at most a quarter turn
either way. -/
def bearingChange {α : Type} [Degrees α] (old new : α) : α :=
  let delta := Degrees.modHalfTurn (new - old)
  if Degrees.whole 90 < delta then delta - Degrees.whole 180 else delta

/-! ## Warnings -/

/-- A wrist that could not take the angle asked for.  The run goes on with the one applied. -/
structure WristWarning where
  requested : Float
  applied : Float

end BlockArm
