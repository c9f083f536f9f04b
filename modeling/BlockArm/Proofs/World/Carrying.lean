/-
# A block carried from one cell to another

A gripper picks a block up, turns it any number of times and puts it down.  In between the block
lies nowhere, and its cells are free.  In the end it lies where it was put, with the turns added to
its rotation, and no other block has noticed; a block that is put back where it was leaves no trace
at all.

* `Block.Shaped.turned_foldl`: several turns add up;
* `World.afterAll_turns`: turning reaches the held block only;
* `World.Carried`, `World.carried_of_release`: the world after a block was carried;
* `World.supports_take`, `World.Consistent.laid_take`: a block does not support itself, and laying
  it down undoes picking it up;
* `World.carried`: both together, in every world that a challenge leads to.
-/
import BlockArm.Proofs.World.Support
import Mathlib

namespace BlockArm

/-! ## Several turns -/

namespace Block

variable {b : Block}

/-- Several turns, each snapped to the grid, add up. -/
theorem Shaped.turned_foldl (h : b.Shaped) (turns : List Int32) :
    Turned (turns.map BlockType.snap).sum b (turns.foldl turnBy b) := by
  induction turns generalizing b with
  | nil => exact h.turned_zero
  | cons degrees turns ih =>
    rw [List.map_cons, List.sum_cons, List.foldl_cons]
    exact (h.turned_turnBy degrees).trans (ih (b.shaped_turnBy degrees))

@[simp] theorem id_foldl_turnBy (b : Block) (turns : List Int32) :
    (turns.foldl turnBy b).id = b.id := by
  induction turns generalizing b with
  | nil => rfl
  | cons degrees turns ih => rw [List.foldl_cons, ih, id_turnBy]

end Block

namespace World

variable {w : World} {b : Block}

/-! ## Carrying -/

/-- Turning a held block several times turns the block and nothing else. -/
theorem afterAll_turns (hheld : w.held = some b) (turns : List Int32) :
    w.afterAll (turns.map .turn) = { w with held := some (turns.foldl Block.turnBy b) } := by
  induction turns generalizing w b with
  | nil =>
    rw [List.foldl_nil, ← hheld]
    rfl
  | cons degrees turns ih =>
    have hturned : w.after (.turn degrees) = { w with held := some (b.turnBy degrees) } := by
      simp only [after, turnHeld, hheld]
    show (w.after (.turn degrees)).afterAll (turns.map .turn) = _
    rw [hturned, ih rfl]
    rfl

/-- The one world is the other one after the block of a number was picked up, turned by some degrees
in all and put down at a cell. -/
structure Carried (id : Nat) (degrees : Int) (q : Cell) (w w' : World) : Prop where
  held : w'.held = none
  /-- Neither the name nor the floor level nor the goal has changed. -/
  frame : w'.name = w.name ∧ w'.floorLevel = w.floorLevel ∧ w'.goal = w.goal
  others : ∀ j, j ≠ id → w'.lying[j]? = w.lying[j]?
  /-- The block has its old type, the cell as its centre, and its rotation with the turns added.  It
  has given up its old cells and covers those of its new place. -/
  block : ∃ b b' : Block, w.lying[id]? = some b ∧ w'.lying[id]? = some b' ∧
    b'.id = id ∧ b'.blockType = b.blockType ∧ b'.center = w.landing q ∧
    b'.rotation.toInt = (b.rotation.toInt + degrees) % b.blockType.symmetry.toInt ∧ b'.Shaped ∧
    ∀ cell : Cell, w'.occupied[cell]? =
      if cell ∈ b'.cells then some id else if cell ∈ b.cells then none else w.occupied[cell]?

/-- A block that is picked up, turned and put down has been carried. -/
theorem carried_of_release {types : List BlockType} (h : Stocked types w) {p q : Cell}
    {id id' : Nat} {w₁ w₂ : World} {turns : List Int32} (hgrip : w.grip p = (.ok id, w₁))
    (hrelease : (w₁.afterAll (turns.map .turn)).release q = (.ok id', w₂)) :
    id' = id ∧ Carried id (turns.map BlockType.snap).sum q w w₂ := by
  rcases w.grip_cases p with ⟨fault, heq⟩ | ⟨j, b, hheld, -, hlying, heq⟩ <;> rw [hgrip] at heq
  · simp at heq
  obtain ⟨hid, rfl⟩ := Prod.mk.inj heq
  obtain rfl : id = b.id := Except.ok.inj hid
  have hb : w.lying[b.id]? = some b := by rwa [h.consistent.id_eq j b hlying]
  have hshaped : b.Shaped := h.shaped b.id b (by rw [owned?_of_held_none hheld, hb])
  -- of the turns only their sum is needed
  have hturned := hshaped.turned_foldl turns
  have hturnedId := b.id_foldl_turnBy turns
  rw [afterAll_turns rfl] at hrelease
  generalize turns.foldl Block.turnBy b = turned at hrelease hturned hturnedId
  rcases release_cases _ q with ⟨fault, heq'⟩ | ⟨b', hheld', -, heq'⟩ <;> rw [hrelease] at heq'
  · simp at heq'
  obtain rfl : turned = b' := Option.some.inj hheld'
  obtain ⟨hid', rfl⟩ := Prod.mk.inj heq'
  refine ⟨(Except.ok.inj hid').trans hturnedId, rfl, ⟨rfl, rfl, rfl⟩, fun j hj => ?_,
    b, turned.moveTo (w.landing q), hb, ?_, hturnedId, hturned.blockType, rfl, hturned.rotation,
    hturned.shaped.moveTo _, fun cell => ?_⟩
  · rw [lying_laid, Block.id_moveTo, hturnedId, if_neg (Ne.symm hj)]
    show (w.take b).lying[j]? = _
    rw [lying_take, if_neg (Ne.symm hj)]
  · rw [lying_laid, Block.id_moveTo, hturnedId, if_pos rfl]
    rfl
  · rw [occupied_laid, Block.id_moveTo, hturnedId]
    show (if _ then _ else (w.take b).occupied[cell]?) = _
    rw [occupied_take]
    rfl

/-! ## Putting back -/

/-- A block does not support itself. -/
theorem supports_take (hshaped : b.Shaped) (hhigh : w.floorLevel < b.center.z) :
    (w.take b).supports b.center b = w.supports b.center b := by
  have hfloor := w.floorLevel.le_toInt
  have hz : w.floorLevel.toInt < b.center.z.toInt := Int32.lt_iff_toInt_lt.mp hhigh
  -- the cells below the block are lower than all of its own
  have hbelow : ∀ cell : Cell, cell.z = b.center.z →
      (w.take b).isOccupied cell.below = w.isOccupied cell.below := by
    intro cell hcell
    have hlower := Cell.toInt_below_z (c := cell) (by rw [hcell]; omega)
    have hnot : cell.below ∉ b.cells := by
      intro hmem
      rw [hshaped.z_of_mem_cells hmem, hcell] at hlower
      omega
    rw [isOccupied, isOccupied, Std.ExtHashMap.contains_eq_isSome_getElem?,
      Std.ExtHashMap.contains_eq_isSome_getElem?, occupied_take, if_neg hnot]
  rw [supports, supports, hbelow b.center rfl,
    List.countP_congr fun cell hcell => by rw [hbelow cell (hshaped.z_of_mem_cells hcell)]]

/-- Laying a block down where it was undoes picking it up. -/
theorem Consistent.laid_take (h : w.Consistent) (hheld : w.held = none)
    (hb : w.lying[b.id]? = some b) :
    ({ w.take b with held := none } : World).laid b = w := by
  have hlying : (({ w.take b with held := none } : World).laid b).lying = w.lying := by
    apply Std.ExtTreeMap.ext_getElem?
    intro id
    rw [lying_laid]
    show (if b.id = id then some b else (w.take b).lying[id]?) = _
    rw [lying_take]
    split
    · next hid => rw [← hid, hb]
    · rfl
  have hoccupied : (({ w.take b with held := none } : World).laid b).occupied = w.occupied := by
    apply Std.ExtHashMap.ext_getElem?
    intro cell
    rw [occupied_laid]
    show (if cell ∈ b.cells then some b.id else (w.take b).occupied[cell]?) = _
    rw [occupied_take]
    split
    · next hcell => exact ((h.occupied_iff cell b.id).mpr ⟨b, hb, hcell⟩).symm
    · rfl
  obtain ⟨name, floorLevel, lying, occupied, held, goal⟩ := w
  obtain rfl : held = none := hheld
  exact congrArg₂ (fun lying occupied => World.mk name floorLevel lying occupied none goal) hlying
    hoccupied

/-- At its own centre a block can be picked up and put down again, if it is at the floor level or
supported there, and the world is what it was. -/
theorem Stocked.grip_release {types : List BlockType} (h : Stocked types w)
    (hsized : ∀ t ∈ types, t.Sized) (hheld : w.held = none) {id : Nat}
    (hb : w.lying[id]? = some b) (hrests : b.center.z = w.floorLevel ∨
      w.floorLevel < b.center.z ∧ w.supports b.center b = true) :
    ∃ w₁, w.grip b.center = (.ok id, w₁) ∧ w₁.release b.center = (.ok id, w) := by
  have howned : w.owned? id = some b := by rw [owned?_of_held_none hheld, hb]
  have hshaped := h.shaped id b howned
  have hcenter := hshaped.center_mem_cells (hsized b.blockType (h.mem_types howned))
  obtain rfl : b.id = id := h.consistent.id_eq id b hb
  refine ⟨_, h.consistent.grip_of_lying hheld hb hcenter, ?_⟩
  -- the block comes to lie at its own centre, where its cells have become free
  have hlanding : ({ w.take b with held := some b } : World).landing b.center = b.center := by
    refine landing_of_floorLevel_le ?_
    show w.floorLevel ≤ b.center.z
    rcases hrests with heq | ⟨hhigh, -⟩
    · exact heq ▸ Int32.le_refl _
    · exact Int32.le_of_lt hhigh
  have hrelease := release_of_supported (w := { w.take b with held := some b }) (c := b.center) rfl
  rw [hlanding, hshaped.moveTo_center] at hrelease
  rw [hrelease ?_ ?_]
  · exact congrArg (Prod.mk _) (h.consistent.laid_take hheld hb)
  · intro cell hcell
    show (w.take b).occupied[cell]? = none
    rw [occupied_take, if_pos hcell]
  · rcases hrests with heq | ⟨hhigh, hsupports⟩
    · exact .inl (heq ▸ Int32.le_refl _)
    · exact .inr ((supports_take hshaped hhigh).trans hsupports)

/-- **Carrying.**  Whatever a challenge was played with, if an empty gripper picks a block up, turns
it any number of times and succeeds in putting it down, it has put down that block: it lies where it
was put with its type and all the turns, and no other block has changed.  A block at the floor level,
or one that is supported higher up, can be picked up at its centre and put back there, and then
nothing has changed at all.  It is other blocks that support it, since no block supports itself. -/
theorem carried {c : Challenge} {w₀ w : World} (h : ofChallenge c = .ok w₀)
    {operations : List Operation} (hw : w₀.afterAll operations = w) (hheld : w.held = none) :
    (∀ (p q : Cell) (turns : List Int32) (id id' : Nat) (w₁ w₂ : World),
      w.grip p = (.ok id, w₁) → (w₁.afterAll (turns.map .turn)).release q = (.ok id', w₂) →
      id' = id ∧ Carried id (turns.map BlockType.snap).sum q w w₂) ∧
    (∀ (id : Nat) (b : Block), w.lying[id]? = some b →
      (b.center.z = w.floorLevel ∨
        w.floorLevel < b.center.z ∧ w.supports b.center b = true) →
      ∃ w₁, w.grip b.center = (.ok id, w₁) ∧ w₁.release b.center = (.ok id, w)) := by
  obtain ⟨types, htypes, hstock⟩ := ofChallenge_stocked h
  have hplayed : Stocked types w := hw ▸ hstock.afterAll operations
  exact ⟨fun p q turns id id' w₁ w₂ hgrip hrelease => carried_of_release hplayed hgrip hrelease,
    fun id b hb hrests => hplayed.grip_release (sized_of_start htypes) hheld hb hrests⟩

/-- The upper plank lies on the lower one, and is put back there. -/
theorem carried_crossedPlanks : ∃ w, ofChallenge crossedPlanks = .ok w ∧ w.held = none ∧
    (∃ w₁, w.grip ⟨3, 4, 2⟩ = (.ok 1, w₁) ∧ w₁.release ⟨3, 4, 2⟩ = (.ok 1, w)) ∧
    Carried 1 0 ⟨3, 4, 2⟩ w w := by
  have hlying : (((empty crossedPlanks).laid (plank 0 ⟨3, 4, 1⟩ 0)).laid
      (plank 1 ⟨3, 4, 2⟩ 90)).lying[1]? = some (plank 1 ⟨3, 4, 2⟩ 90) := by
    rw [lying_laid]
    exact if_pos rfl
  have hbelow : (((empty crossedPlanks).laid (plank 0 ⟨3, 4, 1⟩ 0)).laid
      (plank 1 ⟨3, 4, 2⟩ 90)).isOccupied ⟨3, 4, 1⟩ = true := by
    rw [isOccupied, Std.ExtHashMap.contains_eq_isSome_getElem?, occupied_laid,
      if_neg (by decide +kernel), occupied_laid, if_pos (by decide +kernel), Option.isSome_some]
  have hheld := held_ofChallenge ofChallenge_crossedPlanks
  have hunplayed : ∀ w : World, w.afterAll [] = w := fun _ => rfl
  obtain ⟨hcarry, hback⟩ := carried ofChallenge_crossedPlanks (hunplayed _) hheld
  obtain ⟨w₁, hgrip, hrelease⟩ :=
    hback 1 _ hlying (.inr ⟨by decide +kernel, Bool.or_eq_true_iff.mpr (.inl hbelow)⟩)
  exact ⟨_, ofChallenge_crossedPlanks, hheld, ⟨w₁, hgrip, hrelease⟩,
    (hcarry ⟨3, 4, 2⟩ ⟨3, 4, 2⟩ [] 1 1 w₁ _ hgrip hrelease).2⟩

end World

end BlockArm
