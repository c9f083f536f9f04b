/-
# Reading workspaces and challenges from documents

A document gives the fields by name; unknown names are passed over.  A whole number will do where a
number is wanted, but not the other way round.  A list may hold more elements than are wanted, and
the fields of a challenge may be given as a list, in order.

`Workspace.parse`, `Challenge.parse` and `Catalog.parse` read a document and check what it says.
-/
import BlockArm.Catalog
import BlockArm.Toml.Document
import BlockArm.Workspace
import BlockArm.World.Layout

namespace BlockArm

namespace Toml

/-! ## Fields -/

/-- A text. -/
def Value.asText? : Value → Option String
  | .text s => some s
  | _ => none

/-- A number; a whole one has up to 64 bits, signed or not. -/
def Value.asReal? : Value → Option Float
  | .real x => some x
  | .whole n =>
    if -9223372036854775808 ≤ n ∧ n ≤ 18446744073709551615 then some (Float.ofInt n) else none
  | _ => none

/-- A whole number of 32 bits. -/
def Value.asInt32? : Value → Option Int32
  | .whole n => Text.int32? n
  | _ => none

/-- A list. -/
def Value.asList? : Value → Option (List Value)
  | .list _ values => some values
  | _ => none

/-- A table. -/
def Value.asTable? : Value → Option Entries
  | .table _ entries => some entries
  | _ => none

/-- The first two elements of a list. -/
def Value.asPair? {α : Type} (read : Value → Option α) (v : Value) : Option (α × α) :=
  match v.asList? with
  | some (a :: b :: _) => do some (← read a, ← read b)
  | _ => none

/-- A field that may be missing. -/
def Entries.optional {α : Type} (entries : Entries) (key : String) (default : α)
    (read : Value → Option α) : Option α :=
  match entries.get? key with
  | none => some default
  | some v => read v

/-- A field that must be there. -/
def Entries.required {α : Type} (entries : Entries) (key : String) (read : Value → Option α) :
    Option α := (entries.get? key).bind read

/-- Whether everything but the given names can be passed over. -/
def Entries.skipsOthers (entries : Entries) (names : List String) : Bool :=
  entries.all fun (key, v) => names.contains key || v.isSkippable

/-- A number that may be missing. -/
def Entries.real (entries : Entries) (key : String) (default : Float) : Option Float :=
  entries.optional key default Value.asReal?

end Toml

open Toml

/-! ## Workspaces -/

namespace Workspace

/-- The names of the fields. -/
def fields : List String :=
  ["edge_length", "x_offset", "y_offset", "z_offset", "xy_base_offset", "z_base_offset",
    "min_radius_xy", "max_radius_xy", "min_height", "servo_three_limit"]

/-- The workspace of a document; what is missing keeps its default. -/
def ofEntries? (e : Entries) : Option Workspace := do
  if !e.skipsOthers fields then none
  let base : Workspace := {}
  let (low, high) ← e.optional "servo_three_limit" (base.wrist.low, base.wrist.high)
    (Value.asPair? Value.asReal?)
  some {
    edge := ← e.real "edge_length" base.edge
    xOffset := ← e.real "x_offset" base.xOffset
    yOffset := ← e.real "y_offset" base.yOffset
    zOffset := ← e.real "z_offset" base.zOffset
    shoulderDistance := ← e.real "xy_base_offset" base.shoulderDistance
    shoulderHeight := ← e.real "z_base_offset" base.shoulderHeight
    minRadius := ← e.real "min_radius_xy" base.minRadius
    maxRadius := ← e.real "max_radius_xy" base.maxRadius
    minHeight := ← e.optional "min_height" none fun v => v.asReal?.map some
    wrist := ⟨low, high⟩ }

/-- Reads a workspace and checks it. -/
def parse (text : String) : Except Fault Workspace :=
  match (Toml.parse? text).bind ofEntries? with
  | none => .error (.misconfigured .unreadable)
  | some w => match w.check with
    | .error cause => .error (.misconfigured cause)
    | .ok () => .ok w

end Workspace

/-! ## Challenges -/

/-- A placement `[x, y, z, type]` or `[x, y, z, rotation, type]`. -/
def Placement.ofValue? (v : Value) : Option Placement := do
  match ← v.asList? with
  | [x, y, z, t] => some {
      position := ⟨← x.asInt32?, ← y.asInt32?, ← z.asInt32?⟩
      blockType := ← t.asText? }
  | [x, y, z, r, t] => some {
      position := ⟨← x.asInt32?, ← y.asInt32?, ← z.asInt32?⟩
      rotation := ← r.asInt32?
      blockType := ← t.asText? }
  | _ => none

namespace Challenge

/-- The sides of the block types by name. -/
def sidesOfEntries? : Entries → Option SidesByName
  | [] => some ∅
  | (name, v) :: rest => do
    let (width, depth) ← v.asPair? Value.asInt32?
    let sides ← sidesOfEntries? rest
    some (sides.insert name ⟨width, depth⟩)

/-- The block types of a table. -/
def sidesOfValue? (v : Value) : Option SidesByName := v.asTable?.bind sidesOfEntries?

/-- The placements of a list. -/
def placementsOfValue? (v : Value) : Option (List Placement) := do
  (← v.asList?).mapM Placement.ofValue?

/-- The names of the fields, in order. -/
def fields : List String :=
  ["name", "description", "sample", "floor_level", "block_types", "start", "goal"]

/-- The challenge of a document or of one of its tables. -/
def ofEntries? (e : Entries) : Option Challenge := do
  if !e.skipsOthers fields then none
  some {
    name := ← e.required "name" Value.asText?
    description := ← e.optional "description" "" Value.asText?
    sample := ← e.optional "sample" "" Value.asText?
    floorLevel := ← e.optional "floor_level" defaultFloorLevel Value.asInt32?
    blockTypes := ← e.required "block_types" sidesOfValue?
    start := ← e.required "start" placementsOfValue?
    goal := ← e.required "goal" placementsOfValue? }

/-- The challenge of a table, or of a list that gives every field in order. -/
def ofValue? : Value → Option Challenge
  | .table _ entries => ofEntries? entries
  | .list _ (name :: description :: sample :: floorLevel :: blockTypes :: start :: goal :: _) => do
    some {
      name := ← name.asText?
      description := ← description.asText?
      sample := ← sample.asText?
      floorLevel := ← floorLevel.asInt32?
      blockTypes := ← sidesOfValue? blockTypes
      start := ← placementsOfValue? start
      goal := ← placementsOfValue? goal }
  | _ => none

/-- Reads a challenge and checks it. -/
def parse (text : String) : Except Fault Challenge :=
  match (Toml.parse? text).bind ofEntries? with
  | none => .error (.misconfigured .unreadable)
  | some c => match c.check with
    | .error fault => .error fault
    | .ok () => .ok c

end Challenge

namespace Catalog

/-- The challenges of a document, in order. -/
def ofEntries? (e : Entries) : Option (List Challenge) := do
  if !e.skipsOthers ["challenge"] then none
  e.optional "challenge" [] fun v => do (← v.asList?).mapM Challenge.ofValue?

/-- Refuses a list with a challenge that is refused. -/
def checkAll : List Challenge → Except Fault Unit
  | [] => .ok ()
  | c :: cs => match c.check with
    | .error fault => .error fault
    | .ok () => checkAll cs

/-- The catalog of a list of challenges, each of which is checked.  The list is kept as it is. -/
def ofChallenges (challenges : List Challenge) : Except Fault Catalog :=
  match checkAll challenges with
  | .error fault => .error fault
  | .ok () => .ok { challenges }

/-- Reads a catalog and checks its challenges. -/
def parse (text : String) : Except Fault Catalog :=
  match (Toml.parse? text).bind ofEntries? with
  | none => .error (.misconfigured .unreadable)
  | some challenges => ofChallenges challenges

end Catalog

end BlockArm
