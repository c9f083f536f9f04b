/-
# Cells of the board

The user sees a grid of cells; `z` is the grid height.  Coordinates are 32-bit integers, and a cell
moved past the end of the range stays at the end.
-/
import BlockArm.Text.Whole

namespace BlockArm

/-- A cell of the board and a grid height above it. -/
structure Cell where
  x : Int32
  y : Int32
  z : Int32
  deriving DecidableEq, Hashable, Repr

/-- Cells are told apart by equality. -/
instance : EquivBEq Cell := inferInstance

/-- Equal cells have one hash. -/
instance : LawfulHashable Cell := inferInstance

namespace Cell

/-- A cell as `[x, y, z]`. -/
def text (c : Cell) : String :=
  "[" ++ Text.int32Text c.x ++ ", " ++ Text.int32Text c.y ++ ", " ++ Text.int32Text c.z ++ "]"

/-- The sum of two coordinates, held in the range. -/
def addClamped (a b : Int32) : Int32 := Int32.ofIntClamp (a.toInt + b.toInt)

/-- The cell `dx` and `dy` further on, at the same height. -/
def shift (c : Cell) (dx dy : Int32) : Cell :=
  { c with x := addClamped c.x dx, y := addClamped c.y dy }

/-- The cell one step further down. -/
def below (c : Cell) : Cell := { c with z := addClamped c.z (-1) }

@[simp] theorem shift_z (c : Cell) (dx dy : Int32) : (c.shift dx dy).z = c.z := rfl

end Cell

end BlockArm
