/-
# Worlds in play

A challenge is laid out and then played with: the gripper grips, releases and turns, in any order
and with any arguments, and some of these operations fail.

* `Stocked`: a consistent world owns exactly one block of each of several types, numbered in order;
* `Stocked.after`: every operation keeps this, `layFrom_stocked`: laying the start blocks out brings
  it about;
* `sound_afterAll`: what therefore holds of every world that a challenge leads to.
-/
import BlockArm.Proofs.Block.Shape
import BlockArm.Proofs.World.Consistency
import BlockArm.Proofs.World.Layout

namespace BlockArm

/-- An operation of the gripper with its argument. -/
inductive Operation where
  | grip (c : Cell)
  | release (c : Cell)
  | turn (degrees : Int32)
  deriving DecidableEq, Repr

namespace World

/-- The world after an operation, whether that succeeded or not. -/
def after (w : World) : Operation → World
  | .grip c => (w.grip c).2
  | .release c => (w.release c).2
  | .turn degrees => (w.turnHeld degrees).2

/-- The world after several operations. -/
def afterAll (w : World) (operations : List Operation) : World := operations.foldl after w

/-! ## The stock of blocks -/

/-- A consistent world owns one block of each type, numbered in order and in shape. -/
structure Stocked (types : List BlockType) (w : World) : Prop where
  consistent : w.Consistent
  owned : ∀ id, (w.owned? id).map Block.blockType = types[id]?
  shaped : ∀ (id : Nat) (b : Block), w.owned? id = some b → b.Shaped

variable {types : List BlockType} {w : World}

/-- A world without blocks owns none. -/
theorem stocked_empty (c : Challenge) : Stocked [] (empty c) where
  consistent :=
    { occupied_iff := fun cell id => by simp [empty]
      id_eq := fun id b hb => by simp [empty] at hb
      held_apart := fun b hb => by simp [empty] at hb }
  owned id := by simp [owned?, empty]
  shaped id b hb := by simp [owned?, empty] at hb

/-- A block of the next number joins the stock. -/
theorem Stocked.laid (h : Stocked types w) (hheld : w.held = none) {b : Block}
    (hid : b.id = types.length) (hshaped : b.Shaped)
    (hfree : ∀ c ∈ b.cells, w.occupied[c]? = none) :
    Stocked (types ++ [b.blockType]) (w.laid b) := by
  -- the number of the new block is the next index, which is not in use
  have hnew : w.lying[b.id]? = none := by
    have howned := h.owned b.id
    rw [owned?_of_held_none hheld, hid, List.getElem?_eq_none (Nat.le_refl _)] at howned
    rw [hid]
    exact Option.map_eq_none_iff.mp howned
  have hlook : ∀ id, (w.laid b).owned? id = if b.id = id then some b else w.owned? id := by
    intro id
    rw [owned?_of_held_none (by rw [held_laid, hheld]), lying_laid, owned?_of_held_none hheld]
  refine ⟨h.consistent.laid hnew hheld hfree, fun id => ?_, fun id a ha => ?_⟩
  · rw [hlook]
    by_cases hb : b.id = id
    · subst hb
      rw [if_pos rfl, hid]
      simp
    · rw [if_neg hb, h.owned, List.getElem?_append]
      split
      · rfl
      · rw [List.getElem?_eq_none (by omega), List.getElem?_eq_none (by simp; omega)]
  · rw [hlook] at ha
    split at ha
    · exact (Option.some.inj ha) ▸ hshaped
    · exact h.shaped id a ha

/-- The stock is kept when one block is exchanged for another one of its number and type. -/
theorem Stocked.replaced (h : Stocked types w) {w' : World} (hc : w'.Consistent) {b b' : Block}
    (hb : w.owned? b.id = some b) (htype : b'.blockType = b.blockType) (hshaped : b'.Shaped)
    (hlook : ∀ id, w'.owned? id = if b.id = id then some b' else w.owned? id) :
    Stocked types w' := by
  refine ⟨hc, fun id => ?_, fun id a ha => ?_⟩
  · rw [hlook]
    split
    · next hid =>
      subst hid
      rw [← h.owned b.id, hb, Option.map_some, Option.map_some, htype]
    · exact h.owned id
  · rw [hlook] at ha
    split at ha
    · exact (Option.some.inj ha) ▸ hshaped
    · exact h.shaped id a ha

/-! ## One operation -/

/-- The block in the gripper is owned. -/
theorem owned?_of_held {b : Block} (hheld : w.held = some b) : w.owned? b.id = some b := by
  simp [owned?, hheld]

/-- Gripping keeps the stock. -/
theorem Stocked.grip (h : Stocked types w) (c : Cell) : Stocked types (w.grip c).2 := by
  rcases w.grip_cases c with ⟨fault, heq⟩ | ⟨id, b, hheld, -, hb, heq⟩ <;> rw [heq]
  · exact h
  · have hid := h.consistent.id_eq id b hb
    rw [← hid] at hb
    refine ⟨h.consistent.picked hb, fun j => ?_, fun j a ha => ?_⟩
    · rw [owned?_picked hheld hb]
      exact h.owned j
    · rw [owned?_picked hheld hb] at ha
      exact h.shaped j a ha

/-- Releasing keeps the stock. -/
theorem Stocked.release (h : Stocked types w) (c : Cell) : Stocked types (w.release c).2 := by
  rcases w.release_cases c with ⟨fault, heq⟩ | ⟨b, hheld, hfree, heq⟩ <;> rw [heq]
  · exact h
  · have hb := owned?_of_held hheld
    have hid : (b.moveTo (w.landing c)).id = b.id := rfl
    have hapart := h.consistent.held_apart b hheld
    exact h.replaced (h.consistent.emptied.laid hapart rfl hfree) hb (b.blockType_moveTo _)
      ((h.shaped b.id b hb).moveTo _) (owned?_released hheld hid)

/-- Turning keeps the stock. -/
theorem Stocked.turnHeld (h : Stocked types w) (degrees : Int32) :
    Stocked types (w.turnHeld degrees).2 := by
  rcases w.turnHeld_cases degrees with ⟨fault, heq⟩ | ⟨b, hheld, heq⟩ <;> rw [heq]
  · exact h
  · have hid := b.id_turnBy degrees
    exact h.replaced (h.consistent.exchanged hheld hid) (owned?_of_held hheld)
      (b.blockType_turnBy degrees) (b.shaped_turnBy degrees) (owned?_exchanged hheld hid)

/-- Every operation keeps the stock. -/
theorem Stocked.after (h : Stocked types w) (operation : Operation) :
    Stocked types (w.after operation) := by
  cases operation with
  | grip c => exact h.grip c
  | release c => exact h.release c
  | turn degrees => exact h.turnHeld degrees

/-- Several operations keep the stock. -/
theorem Stocked.afterAll (h : Stocked types w) (operations : List Operation) :
    Stocked types (w.afterAll operations) := by
  induction operations generalizing w with
  | nil => exact h
  | cons operation operations ih => exact ih (h.after operation)

/-! ## Laying the challenge out -/

/-- The block of a placement has its number and type. -/
theorem block_eq_ok {c : Challenge} {id : Nat} {p : Placement} {b : Block}
    (h : c.block id p = .ok b) :
    ∃ t, c.blockType p.blockType = .ok t ∧ b = .place id t p.position p.rotation := by
  obtain ⟨s, hs, hfits, -, rfl⟩ := Challenge.block_eq_ok_iff.mp h
  exact ⟨_, Challenge.blockType_eq_ok_iff.mpr ⟨s, hs, hfits, rfl⟩, rfl⟩

/-- A placement whose block type exists and fits becomes a block. -/
theorem block_of_sides {c : Challenge} {id : Nat} {p : Placement} {s : Sides}
    (hsides : c.blockTypes[p.blockType]? = some s)
    (hfits : (Challenge.sideFits s.width && Challenge.sideFits s.depth) = true)
    (hid : id < maxBlocks) :
    c.block id p = .ok (.place id ⟨p.blockType, s.width, s.depth⟩ p.position p.rotation) := by
  simp only [Challenge.block, Challenge.blockType, hsides, hfits, if_true, hid]

/-- The first placement is laid out first, if there is room for its block. -/
theorem layFrom_cons {c : Challenge} {id : Nat} {w : World} {p : Placement} {b : Block}
    (hblock : c.block id p = .ok b) (hfree : ∀ cell ∈ b.cells, w.occupied[cell]? = none)
    (placements : List Placement) :
    layFrom c id w (p :: placements) = layFrom c (id + 1) (w.laid b) placements := by
  have hlay : w.lay b = .ok (w.laid b) := lay_eq_ok_iff.mpr ⟨hfree, rfl⟩
  rw [layFrom, hblock]
  simp only [hlay]

/-- Laying placements out adds a block of each of their types to the stock. -/
theorem layFrom_stocked {c : Challenge} {placements : List Placement} :
    ∀ {types : List BlockType} {w laidOut : World}, Stocked types w → w.held = none →
      layFrom c types.length w placements = .ok laidOut →
      ∃ more, placements.map (fun p => c.blockType p.blockType) = more.map .ok ∧
        Stocked (types ++ more) laidOut := by
  -- the induction is on the placements; the stock before each gives the number of its block
  induction placements with
  | nil =>
    intro types w laidOut h hheld hlay
    rw [layFrom] at hlay
    obtain rfl := Except.ok.inj hlay
    refine ⟨[], rfl, ?_⟩
    rw [List.append_nil]
    exact h
  | cons p placements ih =>
    intro types w laidOut h hheld hlay
    rw [layFrom] at hlay
    split at hlay
    · simp at hlay
    · next b hblock =>
      obtain ⟨t, ht, rfl⟩ := block_eq_ok hblock
      split at hlay
      · simp at hlay
      · next w' hw' =>
        obtain ⟨hfree, rfl⟩ := lay_eq_ok_iff.mp hw'
        have hshaped := Block.shaped_place types.length t p.position p.rotation
        have hstock : Stocked (types ++ [t]) _ := h.laid hheld rfl hshaped hfree
        rw [show types.length + 1 = (types ++ [t]).length by simp] at hlay
        obtain ⟨more, hmore, hlaid⟩ := ih hstock hheld hlay
        exact ⟨t :: more, by rw [List.map_cons, ht, hmore, List.map_cons], by simpa using hlaid⟩

/-- The world of a challenge owns one block for each placement of the start layout. -/
theorem ofChallenge_stocked {c : Challenge} {w : World} (h : ofChallenge c = .ok w) :
    ∃ types, c.start.map (fun p => c.blockType p.blockType) = types.map .ok ∧ Stocked types w := by
  unfold ofChallenge at h
  split at h
  · simp at h
  · next start hstart =>
    split at h
    · simp at h
    · next goal hgoal =>
      have hempty : (empty c).held = none := rfl
      obtain ⟨types, htypes, hstock⟩ := layFrom_stocked (stocked_empty c) hempty hstart
      obtain rfl := Except.ok.inj h
      have hc := hstock.consistent
      exact ⟨types, htypes, ⟨hc.occupied_iff, hc.id_eq, hc.held_apart⟩, hstock.owned, hstock.shaped⟩

/-- A challenge begins with an empty gripper. -/
theorem held_ofChallenge {c : Challenge} {w : World} (h : ofChallenge c = .ok w) :
    w.held = none := by
  obtain ⟨start, goal, -, -, -, rfl⟩ := ofChallenge_eq_ok_iff.mp h
  exact (laidAll_frame (empty c) start).2.2.1

/-! ## The law of worlds in play -/

/-- What holds of every world that a challenge leads to. -/
structure Sound (c : Challenge) (w : World) : Prop where
  /-- A cell is noted for a number exactly when the block of that number covers it. -/
  occupied_iff : ∀ (cell : Cell) (id : Nat),
    w.occupied[cell]? = some id ↔ ∃ b : Block, w.lying[id]? = some b ∧ cell ∈ b.cells
  /-- Every block lies under its own number. -/
  id_of_lying : ∀ (id : Nat) (b : Block), w.lying[id]? = some b → b.id = id
  /-- No cell belongs to two lying blocks. -/
  disjoint : ∀ (id₁ id₂ : Nat) (b₁ b₂ : Block) (cell : Cell), w.lying[id₁]? = some b₁ →
    w.lying[id₂]? = some b₂ → cell ∈ b₁.cells → cell ∈ b₂.cells → id₁ = id₂
  /-- The numbers of the lying blocks and the held one are the indices of the start layout, each
  once. -/
  ids : (w.everyBlock.map Block.id).Perm (List.range c.start.length)
  /-- Every block has the type that the start layout gives to its number. -/
  type_of_start : ∀ b ∈ w.everyBlock,
    ∃ p, c.start[b.id]? = some p ∧ c.blockType p.blockType = .ok b.blockType
  /-- Every rotation is reduced. -/
  reduced : ∀ b ∈ w.everyBlock, b.blockType.normalize b.rotation = b.rotation
  /-- Every rotation is a multiple of a quarter turn, and less than the symmetry of the type. -/
  rotation_range : ∀ b ∈ w.everyBlock, b.rotation.toInt % 90 = 0 ∧
    0 ≤ b.rotation.toInt ∧ b.rotation.toInt < b.blockType.symmetry.toInt
  /-- The cells of a block are the footprint of its rotation, added to its centre with coordinates
  that stop at the ends of the range. -/
  cells_eq : ∀ b ∈ w.everyBlock, b.cells.map Cell.coordinates =
    (b.blockType.footprint b.rotation).map fun o =>
      (Cell.saturate (b.center.x.toInt + o.1.toInt), Cell.saturate (b.center.y.toInt + o.2.toInt),
        b.center.z.toInt)

/-- The numbers of a stock are the first ones, each once. -/
theorem Stocked.perm_ids (h : Stocked types w) :
    (w.everyBlock.map Block.id).Perm (List.range types.length) := by
  -- no number comes twice on either side, so that it is enough to compare the members
  rw [List.perm_ext_iff_of_nodup h.consistent.nodup_everyBlock List.nodup_range]
  intro id
  rw [List.mem_range, List.mem_map]
  constructor
  · rintro ⟨b, hb, rfl⟩
    have htype := h.owned b.id
    rw [(h.consistent.mem_everyBlock_iff b).mp hb] at htype
    exact (List.getElem?_eq_some_iff.mp htype.symm).1
  · intro hid
    have htype := h.owned id
    rw [List.getElem?_eq_getElem hid] at htype
    obtain ⟨b, hb, -⟩ := Option.map_eq_some_iff.mp htype
    have hbid := h.consistent.id_of_owned hb
    exact ⟨b, (h.consistent.mem_everyBlock_iff b).mpr (hbid ▸ hb), hbid⟩

/-- A world with the stock of a start layout is sound. -/
theorem Stocked.sound {c : Challenge} (h : Stocked types w)
    (htypes : c.start.map (fun p => c.blockType p.blockType) = types.map .ok) : Sound c w := by
  have hlength : types.length = c.start.length := by
    simpa using (congrArg List.length htypes).symm
  have hfound : ∀ b ∈ w.everyBlock, w.owned? b.id = some b :=
    fun b hb => (h.consistent.mem_everyBlock_iff b).mp hb
  have hshaped : ∀ b ∈ w.everyBlock, b.Shaped := fun b hb => h.shaped b.id b (hfound b hb)
  refine ⟨h.consistent.occupied_iff, h.consistent.id_eq, ?_, hlength ▸ h.perm_ids, ?_, ?_, ?_, ?_⟩
  · intro id₁ id₂ b₁ b₂ cell h₁ h₂ hc₁ hc₂
    have hocc := (h.consistent.occupied_iff cell id₁).mpr ⟨b₁, h₁, hc₁⟩
    rw [(h.consistent.occupied_iff cell id₂).mpr ⟨b₂, h₂, hc₂⟩] at hocc
    exact (Option.some.inj hocc).symm
  · intro b hb
    have htype := h.owned b.id
    rw [hfound b hb, Option.map_some] at htype
    have hmap := congrArg (·[b.id]?) htypes
    simp only [List.getElem?_map, ← htype, Option.map_some] at hmap
    exact Option.map_eq_some_iff.mp hmap
  · exact fun b hb => (hshaped b hb).reduced
  · exact fun b hb => (hshaped b hb).rotation_range
  · exact fun b hb => (hshaped b hb).coordinates_cells

/-- **Soundness of play.**  Whatever the gripper does in the world of a challenge, and whether it
succeeds or fails, the maps, the gripper and the blocks fit together. -/
theorem sound_afterAll {c : Challenge} (h : ofChallenge c = .ok w) (operations : List Operation) :
    Sound c (w.afterAll operations) := by
  obtain ⟨types, htypes, hstock⟩ := ofChallenge_stocked h
  exact (hstock.afterAll operations).sound htypes

/-- Two planks, one across the other. -/
def crossedPlanks : Challenge where
  name := "crossing"
  blockTypes := (∅ : SidesByName).insert "plank" ⟨3, 1⟩
  start := [⟨⟨3, 4, 1⟩, 0, "plank"⟩, ⟨⟨3, 4, 2⟩, 90, "plank"⟩]

/-- The plank of a number. -/
def plank (id : Nat) (center : Cell) (degrees : Int32) : Block :=
  .place id ⟨"plank", 3, 1⟩ center degrees

/-- The crossed planks can be laid out. -/
theorem ofChallenge_crossedPlanks : ofChallenge crossedPlanks =
    .ok (((empty crossedPlanks).laid (plank 0 ⟨3, 4, 1⟩ 0)).laid (plank 1 ⟨3, 4, 2⟩ 90)) := by
  have hblock : ∀ id < maxBlocks, ∀ c d,
      crossedPlanks.block id ⟨c, d, "plank"⟩ = .ok (plank id c d) := fun id hid c d =>
    block_of_sides (s := ⟨3, 1⟩) (by simp [crossedPlanks]) (by decide) hid
  have hapart : ∀ c ∈ (plank 1 ⟨3, 4, 2⟩ 90).cells, c ∉ (plank 0 ⟨3, 4, 1⟩ 0).cells := by
    decide +kernel
  have hstart : crossedPlanks.start = [⟨⟨3, 4, 1⟩, 0, "plank"⟩, ⟨⟨3, 4, 2⟩, 90, "plank"⟩] := rfl
  rw [ofChallenge, hstart, layFrom_cons (hblock 0 (by decide) _ _) (fun c _ => by simp [empty]),
    layFrom_cons (hblock (0 + 1) (by decide) _ _) fun c hc => by
      rw [occupied_laid, if_neg (hapart c hc)]
      simp [empty]]
  rfl

/-- The planks fit together after releases and grips, some of which fail, and a turn. -/
theorem sound_crossedPlanks : ∃ w, ofChallenge crossedPlanks = .ok w ∧
    Sound crossedPlanks (w.afterAll [.release ⟨3, 4, 1⟩, .grip ⟨3, 5, 2⟩, .grip ⟨3, 4, 1⟩,
      .turn 135, .release ⟨2147483647, 4, 0⟩, .grip ⟨4, 4, 1⟩]) :=
  ⟨_, ofChallenge_crossedPlanks, sound_afterAll ofChallenge_crossedPlanks _⟩

end World

end BlockArm
