/-
# One block brought to another cell

The world of a challenge has the blocks of the start layout, each lying under its number.  A gripper
over the centre of one of them picks that block up.  It can put it down at every cell of the floor
where the block, as it was turned meanwhile, meets no other block.  A goal that asks for this block
there, and for any of the others where they were, is reached if the turn left no trace.

* `Challenge.Starts`, `Challenge.Clears`: a block of the start layout, and cells that meet no other;
* `Challenge.AsksFor`: a goal with one block at another cell;
* `World.grip_start`, `World.release_start`: the two operations;
* `World.solved_delivered`: when the goal is reached.
-/
import BlockArm.Proofs.World.Matching

namespace BlockArm

/-! ## The start layout -/

namespace Challenge

/-- The start layout has a placement under a number, and this becomes the block. -/
structure Starts (c : Challenge) (i : Nat) (p : Placement) (b : Block) : Prop where
  placement : c.start[i]? = some p
  block : c.block i p = .ok b

/-- No block of the start layout is on one of the cells, but for the one of a number. -/
def Clears (c : Challenge) (i : Nat) (cells : List Cell) : Prop :=
  ∀ j q b, j ≠ i → c.Starts j q b → b.cells.Disjoint cells

/-- The goal asks for the block of a placement at another cell, with its rotation, and for any of
the others of the start layout where they are, each once. -/
def AsksFor (c : Challenge) (i : Nat) (p : Placement) (target : Cell) : Prop :=
  ∃ others : List Placement, others.Sublist (c.start.eraseIdx i) ∧
    c.goal.Perm ({ p with position := target } :: others)

variable {c : Challenge} {i : Nat} {p : Placement} {b : Block}

theorem Starts.id_eq (h : c.Starts i p b) : b.id = i := by
  obtain ⟨t, -, rfl⟩ := World.block_eq_ok h.block
  rfl

theorem Starts.shaped (h : c.Starts i p b) : b.Shaped := by
  obtain ⟨t, -, rfl⟩ := World.block_eq_ok h.block
  exact Block.shaped_place i t p.position p.rotation

/-- The look that a placement asks for, where its type exists. -/
def look? (c : Challenge) (p : Placement) : Option (BlockType × Cell × Int32) :=
  (c.blockType p.blockType).toOption.map fun t => (t, p.position, t.normalize p.rotation)

/-- A block looks as its placement asks. -/
theorem look?_of_block {id : Nat} {p : Placement} {b : Block} (h : c.block id p = .ok b) :
    c.look? p = some b.look := by
  obtain ⟨t, ht, rfl⟩ := World.block_eq_ok h
  rw [look?, ht]
  rfl

theorem map_look?_of_blocksFrom {placements : List Placement} {id : Nat} {bs : List Block}
    (h : c.blocksFrom id placements = .ok bs) :
    placements.map c.look? = (bs.map Block.look).map some := by
  have hblocks := blocksFrom_eq_ok_iff.mp h
  apply List.ext_getElem?
  intro j
  have hj := congrArg (·[j]?) hblocks
  simp only [List.getElem?_mapIdx, List.getElem?_map] at hj ⊢
  cases hp : placements[j]? with
  | none =>
    rw [hp, Option.map_none, eq_comm, Option.map_eq_none_iff] at hj
    rw [hj]
    rfl
  | some p =>
    rw [hp, Option.map_some, eq_comm, Option.map_eq_some_iff] at hj
    obtain ⟨b, hb, hblock⟩ := hj
    rw [hb]
    exact congrArg some (look?_of_block hblock.symm)

/-- Placements that are found among others have their looks among the looks of the others. -/
theorem subperm_of_map_look? {placements others : List Placement}
    {looks more : List (BlockType × Cell × Int32)} (hlooks : placements.map c.look? = looks.map some)
    (hmore : others.map c.look? = more.map some) (h : List.Subperm placements others) :
    List.Subperm looks more := by
  have hfound : ∀ {ps : List Placement} {ls : List (BlockType × Cell × Int32)},
      ps.map c.look? = ls.map some → ps.filterMap c.look? = ls := by
    intro ps ls heq
    have hsome := congrArg (List.filterMap id) heq
    simpa only [List.filterMap_map, Function.id_comp, List.filterMap_some] using hsome
  obtain ⟨some, hperm, hsublist⟩ := h
  rw [← hfound hlooks, ← hfound hmore]
  exact ⟨some.filterMap c.look?, hperm.filterMap c.look?, hsublist.filterMap c.look?⟩

end Challenge

namespace World

variable {c : Challenge} {w : World}

/-- The block of a placement of the start layout lies under its number. -/
theorem lying_of_starts (h : ofChallenge c = .ok w) {i : Nat} {p : Placement} {b : Block}
    (hb : c.Starts i p b) : w.lying[i]? = some b := by
  obtain ⟨bs, hbs, hlying⟩ := lying_ofChallenge h
  have hi := congrArg (·[i]?) (Challenge.blocksFrom_eq_ok_iff.mp hbs)
  simp only [List.getElem?_mapIdx, List.getElem?_map, hb.placement, Option.map_some, Nat.zero_add,
    hb.block] at hi
  obtain ⟨b', hb', hok⟩ := Option.map_eq_some_iff.mp hi.symm
  rw [hlying, hb', Except.ok.inj hok]

/-- A block that lies there is that of a placement. -/
theorem starts_of_lying (h : ofChallenge c = .ok w) {i : Nat} {b : Block}
    (hb : w.lying[i]? = some b) : ∃ p, c.Starts i p b := by
  obtain ⟨bs, hbs, hlying⟩ := lying_ofChallenge h
  have hi := congrArg (·[i]?) (Challenge.blocksFrom_eq_ok_iff.mp hbs)
  rw [hlying] at hb
  simp only [List.getElem?_mapIdx, List.getElem?_map, hb, Option.map_some, Nat.zero_add] at hi
  obtain ⟨p, hp, hblock⟩ := Option.map_eq_some_iff.mp hi
  exact ⟨p, hp, hblock⟩

/-- A challenge that was checked has a world. -/
theorem ofChallenge_of_check (h : c.check = .ok ()) : ∃ w, ofChallenge c = .ok w :=
  (Challenge.check_eq_ok_iff.mp h).2.2

/-- The floor of the world is that of the challenge. -/
theorem floorLevel_ofChallenge (h : ofChallenge c = .ok w) : w.floorLevel = c.floorLevel := by
  obtain ⟨start, goal, -, -, -, rfl⟩ := ofChallenge_eq_ok_iff.mp h
  exact (laidAll_frame (empty c) start).2.1

end World

/-! ## The centre of a block -/

/-- A block of a challenge covers the cell that it is held by. -/
theorem Challenge.Starts.position_mem_cells {c : Challenge} {i : Nat} {p : Placement} {b : Block}
    (h : c.Starts i p b) : p.position ∈ b.cells := by
  obtain ⟨t, ht, rfl⟩ := World.block_eq_ok h.block
  exact h.shaped.center_mem_cells (sized_of_blockType ht)

/-- A square block that is turned stays as it is, since it has one rotation only. -/
theorem Block.Shaped.turnBy_of_square {b : Block} (h : b.Shaped)
    (hsquare : b.blockType.width = b.blockType.depth) (degrees : Int32) :
    b.turnBy degrees = b := by
  have hrotation : (b.turnBy degrees).rotation = b.rotation := by
    obtain ⟨hquarter, hlow, hhigh⟩ := h.rotation_range
    obtain ⟨hquarter', hlow', hhigh'⟩ := (b.shaped_turnBy degrees).rotation_range
    have hsymmetry : b.blockType.symmetry.toInt = 90 := congrArg Int32.toInt (if_pos hsquare)
    rw [Block.blockType_turnBy, hsymmetry] at hhigh'
    rw [hsymmetry] at hhigh
    rw [← Int32.toInt_inj]
    omega
  have hturned : b.turnBy degrees = refresh { b with rotation := (b.turnBy degrees).rotation } := rfl
  rw [hturned, hrotation, refresh]
  exact congrArg (fun cells => { b with cells }) h.cells_eq.symm

/-! ## The two operations -/

/-- A block that was turned by an angle in degrees and put down at a cell. -/
def Block.delivered (b : Block) (degrees : Int32) (target : Cell) : Block :=
  (b.turnBy degrees).moveTo target

@[simp] theorem Block.id_delivered (b : Block) (degrees : Int32) (target : Cell) :
    (b.delivered degrees target).id = b.id := by rw [delivered, id_moveTo, id_turnBy]

/-- With its rotation again, the block looks like its placement at the new place. -/
theorem Challenge.Starts.look?_delivered {c : Challenge} {i : Nat} {p : Placement} {b : Block}
    (h : c.Starts i p b) {degrees : Int32} (hrotation : (b.turnBy degrees).rotation = b.rotation)
    (target : Cell) :
    c.look? { p with position := target } = some (b.delivered degrees target).look := by
  obtain ⟨t, ht, rfl⟩ := World.block_eq_ok h.block
  rw [look?, ht, Block.look, Block.delivered, Block.blockType_moveTo, Block.blockType_turnBy,
    Block.rotation_moveTo, hrotation]
  rfl

namespace World

variable {c : Challenge} {w : World} {i : Nat} {p : Placement} {b : Block} {degrees : Int32}
  {target : Cell}

/-- The world with a block in the gripper, turned by an angle in degrees since it was picked up. -/
def carrying (w : World) (b : Block) (degrees : Int32) : World :=
  { w.take b with held := some (b.turnBy degrees) }

/-- The world with a block put down at another cell. -/
def delivered (w : World) (b : Block) (degrees : Int32) (target : Cell) : World :=
  ({ w.take b with held := none } : World).laid (b.delivered degrees target)

/-- Over the centre of a block of the start layout, the gripper picks up that block. -/
theorem grip_start (h : ofChallenge c = .ok w) (hb : c.Starts i p b) :
    w.grip p.position = (.ok b.id, w.carrying b 0) := by
  obtain ⟨types, -, hstock⟩ := ofChallenge_stocked h
  rw [hstock.consistent.grip_of_lying (held_ofChallenge h) (lying_of_starts h hb)
    hb.position_mem_cells, hb.id_eq, carrying, hb.shaped.turnBy_zero]

/-- A held block is put down on the floor where all its cells are free. -/
theorem release_on_floor (hheld : w.held = some b) (hfloor : target.z = w.floorLevel)
    (hfree : ∀ cell ∈ (b.moveTo target).cells, w.occupied[cell]? = none) :
    w.release target = (.ok b.id, { w with held := none }.laid (b.moveTo target)) := by
  have hlanding : w.landing target = target :=
    landing_of_floorLevel_le (hfloor ▸ Int32.le_refl target.z)
  have hrelease := release_of_supported (c := target) hheld (by rwa [hlanding])
    (.inl (hfloor ▸ Int32.le_refl target.z))
  rwa [hlanding] at hrelease

/-- Without the block, cells that meet no other block of the start layout are free. -/
theorem occupied_take_of_clears (h : ofChallenge c = .ok w) (hb : c.Starts i p b)
    {cells : List Cell} (hclears : c.Clears i cells) :
    ∀ cell ∈ cells, (w.take b).occupied[cell]? = none := by
  obtain ⟨types, -, hstock⟩ := ofChallenge_stocked h
  intro cell hcell
  rw [occupied_take]
  split
  · rfl
  · next hnot =>
    cases hocc : w.occupied[cell]? with
    | none => rfl
    | some j =>
      obtain ⟨b', hb', hmem⟩ := (hstock.consistent.occupied_iff cell j).mp hocc
      obtain ⟨q, hq⟩ := starts_of_lying h hb'
      by_cases hj : j = i
      · subst hj
        rw [lying_of_starts h hb] at hb'
        exact absurd (Option.some.inj hb' ▸ hmem) hnot
      · exact absurd hcell (hclears j q b' hj hq hmem)

/-- On the floor, the block can be put down where it meets no other block of the start layout. -/
theorem release_start (h : ofChallenge c = .ok w) (hb : c.Starts i p b)
    (hfloor : target.z = c.floorLevel) (hclears : c.Clears i (b.delivered degrees target).cells) :
    (w.carrying b degrees).release target = (.ok b.id, w.delivered b degrees target) := by
  have hlevel : target.z = (w.carrying b degrees).floorLevel :=
    hfloor.trans (floorLevel_ofChallenge h).symm
  have hfree := occupied_take_of_clears h hb hclears
  have hrelease := release_on_floor (w := w.carrying b degrees) (b := b.turnBy degrees) rfl hlevel
    hfree
  rw [hrelease, Block.id_turnBy]
  rfl

/-! ## The goal -/

/-- The world stays consistent in this. -/
theorem consistent_delivered (h : ofChallenge c = .ok w) (hb : c.Starts i p b)
    (hclears : c.Clears i (b.delivered degrees target).cells) :
    (w.delivered b degrees target).Consistent := by
  obtain ⟨types, -, hstock⟩ := ofChallenge_stocked h
  have hlying : w.lying[b.id]? = some b := by
    rw [hb.id_eq]
    exact lying_of_starts h hb
  have hnew : (w.take b).lying[(b.delivered degrees target).id]? = none := by
    rw [Block.id_delivered, lying_take, if_pos rfl]
  have hfree := occupied_take_of_clears h hb hclears
  exact (hstock.consistent.picked hlying).emptied.laid hnew rfl hfree

/-- In the end the blocks of the start layout lie in the world, this one at its new place. -/
theorem lying_delivered {bs : List Block} (hb : c.Starts i p b) (hi : i < bs.length)
    (hlying : ∀ n : Nat, w.lying[n]? = bs[n]?) (degrees : Int32) (target : Cell) (n : Nat) :
    (w.delivered b degrees target).lying[n]? = (bs.set i (b.delivered degrees target))[n]? := by
  rw [delivered, lying_laid, Block.id_delivered, hb.id_eq, List.getElem?_set, if_pos hi]
  show (if i = n then _ else (w.take b).lying[n]?) = _
  rw [lying_take, hb.id_eq, hlying]
  split <;> rfl

/-- A goal that asks for the block at another cell is reached once the block lies there, if it has
its rotation again. -/
theorem solved_delivered (h : ofChallenge c = .ok w) (hb : c.Starts i p b)
    (hclears : c.Clears i (b.delivered degrees target).cells)
    (hrotation : (b.turnBy degrees).rotation = b.rotation) (hgoal : c.AsksFor i p target) :
    (w.delivered b degrees target).solved = true := by
  obtain ⟨others, hothers, hperm⟩ := hgoal
  obtain ⟨bs, hbs, hlying⟩ := lying_ofChallenge h
  have hi : i < bs.length := by
    have hfound := lying_of_starts h hb
    rw [hlying] at hfound
    exact (List.getElem?_eq_some_iff.mp hfound).1
  -- all these blocks lie apart
  have hsubperm : List.Subperm (bs.set i (b.delivered degrees target))
      (w.delivered b degrees target).blocks := by
    have hlies := lying_delivered hb hi hlying degrees target
    rw [← List.ofFn_get (bs.set i (b.delivered degrees target))]
    refine subperm_blocks_ofFn (consistent_delivered h hb hclears) Fin.val_injective fun j => ?_
    rw [hlies, List.getElem?_eq_getElem j.isLt]
    rfl
  -- the goal asks for the looks of some of them
  have hlook : c.look? { p with position := target } = some (b.delivered degrees target).look :=
    hb.look?_delivered hrotation target
  have hlooks : (c.start.set i { p with position := target }).map c.look? =
      ((bs.set i (b.delivered degrees target)).map Block.look).map some := by
    rw [List.map_set, Challenge.map_look?_of_blocksFrom hbs, hlook, List.map_set, List.map_set]
  have hasked : List.Subperm c.goal (c.start.set i { p with position := target }) := by
    have hstart := (List.getElem?_eq_some_iff.mp hb.placement).1
    have hpicked := List.set_perm_cons_eraseIdx hstart { p with position := target }
    exact (hperm.subperm_right.mpr (hothers.cons_cons _).subperm).trans hpicked.symm.subperm
  have hfound : List.Subperm (w.goal.map Block.look)
      ((bs.set i (b.delivered degrees target)).map Block.look) :=
    Challenge.subperm_of_map_look? (Challenge.map_look?_of_blocksFrom (goal_ofChallenge h)) hlooks
      hasked
  obtain ⟨used, hused, heq⟩ := map_look_subperm_iff.mp hfound
  rw [solved, matched_iff_subperm]
  exact map_look_subperm_iff.mpr ⟨used, hused.trans hsubperm, heq⟩

end World

end BlockArm
