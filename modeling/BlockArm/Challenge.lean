/-
# Challenges

A challenge is a puzzle: a layout of blocks to start from and the layout to reach.  The block types
are kept by name, in the order of the names.
-/
import BlockArm.Block
import BlockArm.Fault
import Std.Data.ExtTreeMap

namespace BlockArm

/-- Where a block starts or has to end up. -/
structure Placement where
  position : Cell
  /-- The rotation in degrees, as it was given. -/
  rotation : Int32 := 0
  /-- The name of the block type. -/
  blockType : String
  deriving DecidableEq, Repr

/-- The width and the depth of a block type. -/
structure Sides where
  width : Int32
  depth : Int32
  deriving DecidableEq, Repr

/-- The block types of a challenge by name. -/
abbrev SidesByName := Std.ExtTreeMap String Sides

/-- The grid height at which a block lying on the board is gripped. -/
def defaultFloorLevel : Int32 := 1

/-- A puzzle: a layout to start from and the layout to reach. -/
structure Challenge where
  name : String
  description : String := ""
  /-- The script that an editor starts from. -/
  sample : String := ""
  floorLevel : Int32 := defaultFloorLevel
  blockTypes : SidesByName := ∅
  start : List Placement := []
  goal : List Placement := []

namespace Challenge

/-- Whether a side is between one cell and the longest side. -/
def sideFits (side : Int32) : Bool := 1 ≤ side && side ≤ longestSide

/-- The block type of a given name, whose sides must fit. -/
def blockType (c : Challenge) (name : String) : Except Fault BlockType :=
  match c.blockTypes[name]? with
  | none => .error (.unknownBlockType name)
  | some s =>
    if sideFits s.width && sideFits s.depth then .ok ⟨name, s.width, s.depth⟩
    else .error (.misconfigured (.blockSides name c.name s.width s.depth))

end Challenge

end BlockArm
