/-
# The block world

What lies where, what the gripper holds, and the layout to reach.  A block that lies in the world
is found by its number (`lying`) or by a cell that it covers (`occupied`).

Every operation answers and leaves a world:

* `grip` takes the block that covers a cell;
* `release` puts the held block down, on the floor or where it is supported;
* `turnHeld` turns the held block;
* `solved` says whether every goal block is matched by a block of its own.
-/
import BlockArm.Challenge
import Std.Data.ExtHashMap

namespace BlockArm

/-- The world of one run. -/
structure World where
  /-- The name of the challenge. -/
  name : String
  floorLevel : Int32
  /-- The blocks that lie in the world, by number. -/
  lying : Std.ExtTreeMap Nat Block
  /-- The number of the block that covers a cell. -/
  occupied : Std.ExtHashMap Cell Nat
  /-- The block in the gripper. -/
  held : Option Block
  /-- The layout to reach. -/
  goal : List Block

namespace World

/-! ## Looking -/

/-- The blocks that lie in the world, by ascending number. -/
def blocks (w : World) : List Block := w.lying.values

/-- Whether a block covers a cell. -/
def isOccupied (w : World) (c : Cell) : Bool := w.occupied.contains c

/-- The block that lies in the world under a number. -/
def block? (w : World) (id : Nat) : Option Block := w.lying[id]?

/-- The block that covers a cell. -/
def blockAt? (w : World) (c : Cell) : Option Block := w.occupied[c]?.bind w.block?

/-- Whether the gripper holds a block. -/
def isHolding (w : World) : Bool := w.held.isSome

/-- Whether each goal finds a fitting block among those not yet used; the first that fits is used. -/
def matched : List Block → List Block → Bool
  | [], _ => true
  | goal :: goals, free =>
    free.any (·.fits goal) && matched goals (free.eraseP (·.fits goal))

/-- Whether the goal is reached. -/
def solved (w : World) : Bool := matched w.goal w.blocks

/-! ## Laying and taking -/

/-- The world with one more block lying in it.  The block may not cover an occupied cell. -/
@[irreducible] def lay (w : World) (b : Block) : Except Fault World :=
  match b.cells.find? w.isOccupied with
  | some c => .error (.cellOccupied c)
  | none => .ok { w with
      lying := w.lying.insert b.id b
      occupied := b.cells.foldl (fun occupied c => occupied.insert c b.id) w.occupied }

/-- The world with one block less lying in it. -/
def take (w : World) (b : Block) : World :=
  { w with
    lying := w.lying.erase b.id
    occupied := b.cells.foldl (fun occupied c => occupied.erase c) w.occupied }

/-! ## The gripper -/

/-- Picks up the block that covers the cell. -/
def grip (w : World) (c : Cell) : Except Fault Nat × World :=
  if w.isHolding then (.error .gripperBusy, w)
  else match w.blockAt? c with
    | none => (.error (.emptyGrip c), w)
    | some b => (.ok b.id, { w.take b with held := some b })

/-- Whether a block held at a cell would be supported there: by the cell below, or by two of the
cells below its footprint. -/
def supports (w : World) (c : Cell) (b : Block) : Bool :=
  w.isOccupied c.below || 2 ≤ b.cells.countP fun cell => w.isOccupied cell.below

/-- Puts the held block down with its centre on the cell.  At the floor level or lower it comes to
lie on the floor; higher up it must be supported. -/
def release (w : World) (c : Cell) : Except Fault Nat × World :=
  match w.held with
  | none => (.error .notHolding, w)
  | some held =>
    let onFloor : Bool := c.z ≤ w.floorLevel
    let placed := held.moveTo (if onFloor then { c with z := w.floorLevel } else c)
    match placed.cells.find? w.isOccupied with
    | some cell => (.error (.cellOccupied cell), w)
    | none =>
      if !onFloor && !w.supports c placed then (.error (.midAirRelease c), w)
      else
        let emptied := { w with held := none }
        match emptied.lay placed with
        | .error fault => (.error fault, emptied)
        | .ok after => (.ok placed.id, after)

/-- Turns the held block and answers its new rotation. -/
def turnHeld (w : World) (degrees : Int32) : Except Fault Int32 × World :=
  match w.held with
  | none => (.error .notHolding, w)
  | some b =>
    let turned := b.turnBy degrees
    (.ok turned.rotation, { w with held := some turned })

end World

end BlockArm
