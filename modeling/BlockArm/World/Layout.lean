/-
# Laying out a challenge

`World.ofChallenge` lays the start blocks out, each under its number in the layout, and notes the
goal.  `Challenge.check` also looks at the block types that no placement uses.
-/
import BlockArm.World

namespace BlockArm

/-- How many blocks a layout can number. -/
def maxBlocks : Nat := 65536

namespace Challenge

/-- The block of a placement under its number. -/
def block (c : Challenge) (id : Nat) (p : Placement) : Except Fault Block :=
  match c.blockType p.blockType with
  | .error fault => .error fault
  | .ok t =>
    if id < maxBlocks then .ok (.place id t p.position p.rotation)
    else .error (.misconfigured (.tooManyBlocks c.name))

/-- The blocks of the placements, numbered from `id` on. -/
def blocksFrom (c : Challenge) (id : Nat) : List Placement → Except Fault (List Block)
  | [] => .ok []
  | p :: ps => match c.block id p with
    | .error fault => .error fault
    | .ok b => match c.blocksFrom (id + 1) ps with
      | .error fault => .error fault
      | .ok bs => .ok (b :: bs)

end Challenge

namespace World

/-- A world without blocks. -/
def empty (c : Challenge) : World :=
  { name := c.name, floorLevel := c.floorLevel, lying := ∅, occupied := ∅, held := none, goal := [] }

/-- The world with the blocks of the placements laid out, numbered from `id` on. -/
def layFrom (c : Challenge) (id : Nat) (w : World) : List Placement → Except Fault World
  | [] => .ok w
  | p :: ps => match c.block id p with
    | .error fault => .error fault
    | .ok b => match w.lay b with
      | .error fault => .error fault
      | .ok w => layFrom c (id + 1) w ps

/-- The world that a run of the challenge starts in. -/
def ofChallenge (c : Challenge) : Except Fault World :=
  match layFrom c 0 (empty c) c.start with
  | .error fault => .error fault
  | .ok w => match c.blocksFrom 0 c.goal with
    | .error fault => .error fault
    | .ok goal => .ok { w with goal }

end World

namespace Challenge

/-- Refuses a challenge with a block type that does not exist or does not fit. -/
def checkTypes (c : Challenge) : List String → Except Fault Unit
  | [] => .ok ()
  | name :: names => match c.blockType name with
    | .error fault => .error fault
    | .ok _ => c.checkTypes names

/-- Refuses a challenge with unfit block types, whether they are used or not, or with a start layout
that cannot be laid out. -/
def check (c : Challenge) : Except Fault Unit :=
  match c.checkTypes c.blockTypes.keys with
  | .error fault => .error fault
  | .ok () => match c.checkTypes (c.goal.map Placement.blockType) with
    | .error fault => .error fault
    | .ok () => match World.ofChallenge c with
      | .error fault => .error fault
      | .ok _ => .ok ()

end Challenge

end BlockArm
