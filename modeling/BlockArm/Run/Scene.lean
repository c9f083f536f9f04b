/-
# Statements in a scene

A scene is a rig and, where a challenge is played, its block world.  A statement is first carried
out on the rig; only when all its steps have succeeded does its effect reach the blocks.
-/
import BlockArm.Run.Motion
import BlockArm.World

namespace BlockArm

/-! ## Effects on the blocks -/

/-- Applies an effect to the blocks and answers the message that goes with it. -/
def Effect.apply : Effect → World → Except Fault (Option String) × World
  | .grip c, w => match w.grip c with
    | (.ok id, w) => (.ok (some ("picked up block " ++ Text.natText id)), w)
    | (.error fault, w) => (.error fault, w)
  | .release c, w => match w.release c with
    | (.ok id, w) => (.ok (some ("released block " ++ Text.natText id)), w)
    | (.error fault, w) => (.error fault, w)
  | .turn degrees, w =>
    if degrees ≠ 0 ∧ w.isHolding = true then
      match w.turnHeld degrees with
      | (.ok _, w) => (.ok none, w)
      | (.error fault, w) => (.error fault, w)
    else (.ok none, w)

/-! ## Scenes -/

/-- A rig and the world of the challenge that is played, if any. -/
structure Scene (σ : Type) where
  rig : Rig σ
  world : Option World := none

namespace Scene

variable {σ : Type}

/-- The scene with one more message, if it is kept. -/
def say (s : Scene σ) (level : Level) (text : String) : Scene σ :=
  { s with rig := s.rig.say level text }

/-- Applies an effect to the world of the scene. -/
def affect (e : Effect) : Scene σ → Outcome Unit × Scene σ
  | ⟨rig, none⟩ => (.value (), ⟨rig, none⟩)
  | ⟨rig, some w⟩ => match e.apply w with
    | (.error fault, w) => (.fault fault, ⟨rig, some w⟩)
    | (.ok none, w) => (.value (), ⟨rig, some w⟩)
    | (.ok (some text), w) => (.value (), say ⟨rig, some w⟩ .debug text)

/-- Carries a statement out. -/
def perform (st : Station) (d : Device σ) (statement : Statement) :
    Scene σ → Outcome Unit × Scene σ
  | ⟨rig, world⟩ => match (st.plan rig.arm statement).exec d rig with
    | (.value effect, rig) => affect effect ⟨rig, world⟩
    | (.fault fault, rig) => (.fault fault, ⟨rig, world⟩)
    | (.broken b, rig) => (.broken b, ⟨rig, world⟩)

end Scene

end BlockArm
