/-
# Blocks

A block covers a rectangle of cells around the cell it is held by.  Half a turn maps every
rectangle onto itself, and a quarter turn maps a square onto itself, so a rotation is kept reduced
by that symmetry (`BlockType.normalize`).  Its cells are kept, too, and every change of a block
computes them anew (`Block.refresh`).
-/
import BlockArm.Cell

namespace BlockArm

/-! ## Types of blocks -/

/-- A kind of block: a name and its extent in cells along both axes at rotation zero. -/
structure BlockType where
  name : String
  width : Int32
  depth : Int32
  deriving DecidableEq, Repr

namespace BlockType

/-- The smallest turn, in degrees, that maps the footprint onto itself. -/
def symmetry (t : BlockType) : Int32 := if t.width = t.depth then 90 else 180

/-- The multiple of 90 nearest to an angle modulo a full turn, a tie going up. -/
def snap (degrees : Int32) : Int := (degrees.toInt % 360 + 45) / 90 * 90

/-- A rotation snapped to the grid and reduced modulo the symmetry. -/
def normalize (t : BlockType) (degrees : Int32) : Int32 :=
  Int32.ofInt (snap degrees % t.symmetry.toInt)

/-- The offsets along one axis; the extra cell of an even extent is on the positive side. -/
def offsets (extent : Int32) : List Int32 :=
  (List.range extent.toInt.toNat).map fun i : Nat => Int32.ofInt (i - (extent.toInt - 1) / 2)

/-- The extents along both axes at a rotation. -/
def extents (t : BlockType) (rotation : Int32) : Int32 × Int32 :=
  if (t.normalize rotation).toInt % 180 = 90 then (t.depth, t.width) else (t.width, t.depth)

/-- The offsets of the covered cells from the centre cell, ascending, the first axis first.  A side
without any extent covers nothing. -/
def footprint (t : BlockType) (rotation : Int32) : List (Int32 × Int32) :=
  let (w, d) := t.extents rotation
  if w ≤ 0 ∨ d ≤ 0 then []
  else (offsets w).flatMap fun dx => (offsets d).map fun dy => (dx, dy)

/-- The offsets are as many as the extent. -/
@[simp] theorem length_offsets (extent : Int32) :
    (offsets extent).length = extent.toInt.toNat := by simp [offsets]

end BlockType

/-! ## Blocks -/

/-- A block of the start layout or of the goal, known by its number in that layout. -/
structure Block where
  id : Nat
  blockType : BlockType
  /-- The cell that the gripper holds it by. -/
  center : Cell
  /-- The rotation in degrees, reduced by the symmetry of the type. -/
  rotation : Int32
  /-- Every cell that the block covers, computed anew on every change. -/
  cells : List Cell := []
  deriving DecidableEq, Repr

namespace Block

/-- The cells under the footprint of a block where it is. -/
def covered (b : Block) : List Cell :=
  (b.blockType.footprint b.rotation).map fun (dx, dy) => b.center.shift dx dy

/-- The block with its cells computed anew. -/
def refresh (b : Block) : Block := { b with cells := b.covered }

/-- A block at a cell, turned by any angle. -/
def place (id : Nat) (blockType : BlockType) (center : Cell) (degrees : Int32) : Block :=
  refresh { id, blockType, center, rotation := blockType.normalize degrees }

/-- The block at another cell. -/
def moveTo (b : Block) (center : Cell) : Block := refresh { b with center }

/-- The block turned by an angle in degrees, snapped to the grid. -/
def turnBy (b : Block) (degrees : Int32) : Block :=
  refresh { b with
    rotation := b.blockType.normalize (b.rotation + Int32.ofInt (degrees.toInt % 360)) }

/-- Whether two blocks agree in type, place and orientation. -/
def fits (b other : Block) : Bool :=
  b.blockType = other.blockType && b.center = other.center && b.rotation = other.rotation

@[simp] theorem id_moveTo (b : Block) (c : Cell) : (b.moveTo c).id = b.id := rfl

@[simp] theorem id_turnBy (b : Block) (d : Int32) : (b.turnBy d).id = b.id := by
  simp only [turnBy, refresh]

@[simp] theorem blockType_moveTo (b : Block) (c : Cell) : (b.moveTo c).blockType = b.blockType := rfl

@[simp] theorem blockType_turnBy (b : Block) (d : Int32) : (b.turnBy d).blockType = b.blockType := by
  simp only [turnBy, refresh]

@[simp] theorem center_turnBy (b : Block) (d : Int32) : (b.turnBy d).center = b.center := by
  simp only [turnBy, refresh]

@[simp] theorem rotation_moveTo (b : Block) (c : Cell) : (b.moveTo c).rotation = b.rotation := rfl

end Block

end BlockArm
