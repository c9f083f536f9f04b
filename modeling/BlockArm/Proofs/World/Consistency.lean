/-
# Consistent worlds

In a consistent world the two maps and the gripper tell one story: a cell is noted for a number
exactly when the block of that number covers it, every block lies under its own number, and the held
block does not lie anywhere.  Laying a block down on free cells and picking one up keep this.

`owned?` finds a block by its number, whether it lies in the world or is held.  Gripping does not
change what it finds, releasing and turning change it for the held block only.

* `Consistent.laid`, `Consistent.picked`: the two changes of the maps keep a world consistent;
* `owned?_picked`, `owned?_released`: what they do to the owned blocks;
* `mem_everyBlock_iff`: the blocks that are listed are the ones that are found.
-/
import BlockArm.Proofs.World.Occupancy
import Mathlib.Data.List.Nodup

namespace BlockArm

namespace World

/-- The maps and the gripper tell one story. -/
structure Consistent (w : World) : Prop where
  occupied_iff : ∀ (c : Cell) (id : Nat),
    w.occupied[c]? = some id ↔ ∃ b : Block, w.lying[id]? = some b ∧ c ∈ b.cells
  id_eq : ∀ (id : Nat) (b : Block), w.lying[id]? = some b → b.id = id
  held_apart : ∀ b : Block, w.held = some b → w.lying[b.id]? = none

/-- The block of a number, lying or held. -/
def owned? (w : World) (id : Nat) : Option Block :=
  match w.held with
  | none => w.lying[id]?
  | some b => if b.id = id then some b else w.lying[id]?

/-! ## The changes of the maps -/

/-- A world stays consistent when a block of a new number is laid on free cells. -/
theorem Consistent.laid {w : World} (h : w.Consistent) {b : Block} (hnew : w.lying[b.id]? = none)
    (hheld : w.held = none) (hfree : ∀ c ∈ b.cells, w.occupied[c]? = none) :
    (w.laid b).Consistent where
  occupied_iff c id := by
    rw [occupied_laid, lying_laid]
    by_cases hc : c ∈ b.cells <;> by_cases hid : b.id = id
    · simp [hc, hid]
    · -- an older block on this cell would have occupied it
      simp only [hc, hid, if_true, if_false, Option.some.injEq, false_iff]
      rintro ⟨a, ha, hca⟩
      have hocc := (h.occupied_iff c id).mpr ⟨a, ha, hca⟩
      rw [hfree c hc] at hocc
      simp at hocc
    · subst hid
      simp only [hc, if_true, if_false, Option.some.injEq, exists_eq_left', iff_false]
      intro hocc
      obtain ⟨a, ha, -⟩ := (h.occupied_iff c b.id).mp hocc
      rw [hnew] at ha
      simp at ha
    · simp only [hc, hid, if_false]
      exact h.occupied_iff c id
  id_eq id a := by
    rw [lying_laid]
    split
    · next hid =>
      intro ha
      exact (Option.some.inj ha) ▸ hid
    · exact h.id_eq id a
  held_apart a ha := by
    rw [held_laid, hheld] at ha
    simp at ha

/-- A world stays consistent when an empty gripper takes a block. -/
theorem Consistent.picked {w : World} (h : w.Consistent) {b : Block}
    (hb : w.lying[b.id]? = some b) :
    ({ w.take b with held := some b } : World).Consistent where
  occupied_iff c id := by
    show (w.take b).occupied[c]? = some id ↔
      ∃ a : Block, (w.take b).lying[id]? = some a ∧ c ∈ a.cells
    rw [occupied_take, lying_take]
    by_cases hc : c ∈ b.cells <;> by_cases hid : b.id = id
    · simp [hc, hid]
    · -- no other block can cover a cell of the block that is taken
      simp only [hc, hid, if_true, if_false, reduceCtorEq, false_iff]
      rintro ⟨a, ha, hca⟩
      have hb' := (h.occupied_iff c b.id).mpr ⟨b, hb, hc⟩
      rw [(h.occupied_iff c id).mpr ⟨a, ha, hca⟩] at hb'
      exact hid (Option.some.inj hb').symm
    · subst hid
      simp only [hc, if_true, if_false, false_and, exists_false, iff_false, reduceCtorEq]
      intro hocc
      obtain ⟨a, ha, hca⟩ := (h.occupied_iff c b.id).mp hocc
      rw [hb] at ha
      exact hc ((Option.some.inj ha) ▸ hca)
    · simp only [hc, hid, if_false]
      exact h.occupied_iff c id
  id_eq id a := by
    show (w.take b).lying[id]? = some a → a.id = id
    rw [lying_take]
    split
    · intro ha
      simp at ha
    · exact h.id_eq id a
  held_apart a ha := by
    obtain rfl : b = a := Option.some.inj ha
    show (w.take b).lying[b.id]? = none
    rw [lying_take, if_pos rfl]

/-- A world stays consistent when the held block is exchanged for another one of its number. -/
theorem Consistent.exchanged {w : World} (h : w.Consistent) {b b' : Block} (hheld : w.held = some b)
    (hid : b'.id = b.id) : ({ w with held := some b' } : World).Consistent where
  occupied_iff := h.occupied_iff
  id_eq := h.id_eq
  held_apart a ha := by
    obtain rfl : b' = a := Option.some.inj ha
    exact hid ▸ h.held_apart b hheld

/-- A world stays consistent when the gripper drops what it holds out of the world. -/
theorem Consistent.emptied {w : World} (h : w.Consistent) :
    ({ w with held := none } : World).Consistent where
  occupied_iff := h.occupied_iff
  id_eq := h.id_eq
  held_apart a ha := by simp at ha

/-- An empty gripper picks up the block that covers the cell. -/
theorem Consistent.grip_of_lying {w : World} (h : w.Consistent) (hheld : w.held = none) {id : Nat}
    {b : Block} (hb : w.lying[id]? = some b) {c : Cell} (hc : c ∈ b.cells) :
    w.grip c = (.ok id, { w.take b with held := some b }) := by
  have hat : w.blockAt? c = some b := by
    rw [blockAt?, (h.occupied_iff c id).mpr ⟨b, hb, hc⟩]
    exact hb
  have hempty : w.isHolding = false := by rw [isHolding, hheld, Option.isSome_none]
  rw [grip, hempty, hat, ← h.id_eq id b hb]
  rfl

/-! ## The owned blocks -/

/-- An owned block is found under its own number. -/
theorem Consistent.id_of_owned {w : World} (h : w.Consistent) {id : Nat} {b : Block}
    (hb : w.owned? id = some b) : b.id = id := by
  unfold owned? at hb
  split at hb
  · exact h.id_eq id b hb
  · split at hb
    · next hid => exact (Option.some.inj hb) ▸ hid
    · exact h.id_eq id b hb

/-- With an empty gripper the owned blocks are the lying ones. -/
theorem owned?_of_held_none {w : World} (hheld : w.held = none) (id : Nat) :
    w.owned? id = w.lying[id]? := by
  unfold owned?
  rw [hheld]

/-- Picking a block up changes no owned block. -/
theorem owned?_picked {w : World} {b : Block} (hheld : w.held = none) (hb : w.lying[b.id]? = some b)
    (id : Nat) : ({ w.take b with held := some b } : World).owned? id = w.owned? id := by
  rw [owned?_of_held_none hheld]
  show (if b.id = id then some b else (w.take b).lying[id]?) = _
  rw [lying_take]
  by_cases hid : b.id = id
  · rw [if_pos hid, ← hid, hb]
  · rw [if_neg hid, if_neg hid]

/-- Putting the held block down changes only that block. -/
theorem owned?_released {w : World} {b b' : Block} (hheld : w.held = some b) (hid : b'.id = b.id)
    (id : Nat) : (({ w with held := none } : World).laid b').owned? id =
      if b.id = id then some b' else w.owned? id := by
  rw [owned?_of_held_none rfl, lying_laid, hid]
  by_cases h : b.id = id
  · rw [if_pos h, if_pos h]
  · simp [h, owned?, hheld]

/-- Exchanging the held block for another one of its number changes only that block. -/
theorem owned?_exchanged {w : World} {b b' : Block} (hheld : w.held = some b) (hid : b'.id = b.id)
    (id : Nat) : ({ w with held := some b' } : World).owned? id =
      if b.id = id then some b' else w.owned? id := by
  show (if b'.id = id then some b' else w.lying[id]?) = _
  rw [hid]
  by_cases h : b.id = id
  · rw [if_pos h, if_pos h]
  · simp [h, owned?, hheld]

/-! ## Listing the blocks -/

/-- The blocks of a world: the lying ones and the held one. -/
def everyBlock (w : World) : List Block := w.blocks ++ w.held.toList

/-- The values of a map are those of its pairs. -/
theorem values_eq_map_toList (m : Std.ExtTreeMap Nat Block) : m.values = m.toList.map Prod.snd := by
  obtain ⟨q⟩ := m
  -- the library relates the two lists for the trees only, not for the maps that they stand for
  refine q.inductionOn fun t => ?_
  show t.inner.values = (Std.DTreeMap.Internal.Impl.Const.toList t.inner).map Prod.snd
  rw [Std.DTreeMap.Internal.Impl.values_eq_map_snd,
    Std.DTreeMap.Internal.Impl.Const.toList_eq_toListModel_map, List.map_map]
  rfl

/-- A lying block is listed. -/
theorem mem_blocks_iff (w : World) (b : Block) :
    b ∈ w.blocks ↔ ∃ id : Nat, w.lying[id]? = some b := by
  rw [blocks, values_eq_map_toList, List.mem_map]
  constructor
  · rintro ⟨⟨id, a⟩, hmem, rfl⟩
    exact ⟨id, Std.ExtTreeMap.mem_toList_iff_getElem?_eq_some.mp hmem⟩
  · rintro ⟨id, h⟩
    exact ⟨(id, b), Std.ExtTreeMap.mem_toList_iff_getElem?_eq_some.mpr h, rfl⟩

/-- The numbers of the lying blocks are all different. -/
theorem Consistent.nodup_ids {w : World} (h : w.Consistent) : (w.blocks.map Block.id).Nodup := by
  have hkeys : w.blocks.map Block.id = w.lying.keys := by
    rw [blocks, values_eq_map_toList, List.map_map, ← Std.ExtTreeMap.map_fst_toList_eq_keys]
    apply List.map_congr_left
    rintro ⟨id, b⟩ hmem
    exact h.id_eq id b (Std.ExtTreeMap.mem_toList_iff_getElem?_eq_some.mp hmem)
  rw [hkeys]
  exact Std.ExtTreeMap.nodup_keys

/-- The blocks that are listed are the ones that are found by their numbers. -/
theorem Consistent.mem_everyBlock_iff {w : World} (h : w.Consistent) (b : Block) :
    b ∈ w.everyBlock ↔ w.owned? b.id = some b := by
  have hlying : b ∈ w.blocks ↔ w.lying[b.id]? = some b := by
    rw [mem_blocks_iff]
    constructor
    · rintro ⟨id, hid⟩
      exact (h.id_eq id b hid) ▸ hid
    · exact fun hb => ⟨b.id, hb⟩
  rw [everyBlock, List.mem_append, hlying, owned?]
  cases hheld : w.held with
  | none => simp
  | some a =>
    simp only [Option.toList_some, List.mem_singleton]
    constructor
    · rintro (hb | rfl)
      · have hne : a.id ≠ b.id := by
          intro hid
          rw [← hid, h.held_apart a hheld] at hb
          simp at hb
        rw [if_neg hne, hb]
      · rw [if_pos rfl]
    · intro hb
      by_cases hid : a.id = b.id
      · rw [if_pos hid] at hb
        exact Or.inr (Option.some.inj hb).symm
      · rw [if_neg hid] at hb
        exact Or.inl hb

/-- The numbers of all blocks are different. -/
theorem Consistent.nodup_everyBlock {w : World} (h : w.Consistent) :
    (w.everyBlock.map Block.id).Nodup := by
  rw [everyBlock, List.map_append]
  cases hheld : w.held with
  | none => simpa using h.nodup_ids
  | some a =>
    -- the held block does not lie anywhere, so that its number is a new one
    refine List.Nodup.append h.nodup_ids (by simp) ?_
    simp only [Option.toList_some, List.map_cons, List.map_nil, List.disjoint_singleton]
    intro hmem
    obtain ⟨b, hb, hid⟩ := List.mem_map.mp hmem
    obtain ⟨id, hlying⟩ := (mem_blocks_iff w b).mp hb
    have hown := h.id_eq id b hlying
    rw [← hown, hid, h.held_apart a hheld] at hlying
    simp at hlying

end World

end BlockArm
