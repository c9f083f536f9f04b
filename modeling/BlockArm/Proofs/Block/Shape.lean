/-
# The shape of a block

A rotation is snapped to a multiple of 90 and reduced by the symmetry of the block type, so what is
left is 0 or 90.  The covered cells are the footprint of that rotation, moved to the centre cell
with coordinates that stop at the ends of the 32-bit range.

* `BlockType.toInt_normalize`: a reduced rotation as a whole number;
* `BlockType.normalize_normalize`: a reduced rotation is reduced no further;
* `Cell.toInt_addClamped`: what becomes of a sum of coordinates;
* `Block.Shaped`: the rotation is reduced and the cells are those of the footprint; every way to
  make a block or to change one brings this about;
* `Block.Shaped.rotation_range`, `Block.Shaped.coordinates_cells`: what this says in whole numbers;
* `Block.Turned`: a block before and after a turn; several turns add up.
-/
import BlockArm.Block

namespace BlockArm

/-! ## Reduced rotations -/

namespace BlockType

/-- The symmetry is a quarter turn or half a turn. -/
theorem toInt_symmetry (t : BlockType) : t.symmetry.toInt = 90 ∨ t.symmetry.toInt = 180 := by
  unfold symmetry
  split
  · exact Or.inl rfl
  · exact Or.inr rfl

/-- Snapped angles are multiples of a quarter turn. -/
theorem snap_emod_ninety (degrees : Int32) : snap degrees % 90 = 0 := by
  unfold snap
  omega

/-- A reduced rotation is no quarter turn, or one. -/
theorem snap_emod_symmetry (t : BlockType) (degrees : Int32) :
    snap degrees % t.symmetry.toInt = 0 ∨ snap degrees % t.symmetry.toInt = 90 := by
  have h := snap_emod_ninety degrees
  rcases t.toInt_symmetry with hs | hs <;> rw [hs] <;> omega

/-- A reduced rotation is the snapped angle modulo the symmetry. -/
theorem toInt_normalize (t : BlockType) (degrees : Int32) :
    (t.normalize degrees).toInt = snap degrees % t.symmetry.toInt := by
  have h := t.snap_emod_symmetry degrees
  unfold normalize
  rw [Int32.toInt_ofInt_of_le] <;> omega

/-- A reduced rotation is reduced no further. -/
@[simp] theorem normalize_normalize (t : BlockType) (degrees : Int32) :
    t.normalize (t.normalize degrees) = t.normalize degrees := by
  have hreduced := t.snap_emod_symmetry degrees
  have hsnap : snap (t.normalize degrees) = snap degrees % t.symmetry.toInt := by
    rw [snap, toInt_normalize]
    omega
  rw [← Int32.toInt_inj, toInt_normalize, hsnap, Int.emod_emod, toInt_normalize]

end BlockType

/-! ## Coordinates at the ends of the range -/

namespace Cell

/-- A whole number held in the range of 32 bits. -/
def saturate (n : Int) : Int := max (-2147483648) (min 2147483647 n)

/-- The coordinates of a cell as whole numbers. -/
def coordinates (c : Cell) : Int × Int × Int := (c.x.toInt, c.y.toInt, c.z.toInt)

/-- A sum of coordinates stops at the ends of the range. -/
theorem toInt_addClamped (a b : Int32) :
    (addClamped a b).toInt = saturate (a.toInt + b.toInt) := by
  unfold addClamped saturate
  have hmin : Int32.minValue.toInt = -2147483648 := rfl
  have hmax : Int32.maxValue.toInt = 2147483647 := rfl
  -- the sum is below the range, above it or within it
  by_cases hlow : a.toInt + b.toInt < -2147483648
  · have hc : Int32.ofIntClamp (a.toInt + b.toInt) = Int32.minValue := by
      rw [Int32.ofIntClamp, dif_neg (by omega)]
    rw [hc, hmin]
    omega
  · by_cases hhigh : 2147483647 < a.toInt + b.toInt
    · have hc : Int32.ofIntClamp (a.toInt + b.toInt) = Int32.maxValue := by
        rw [Int32.ofIntClamp, dif_pos (by omega), dif_neg (by omega)]
      rw [hc, hmax]
      omega
    · rw [Int32.toInt_ofIntClamp (by omega) (by omega)]
      omega

end Cell

/-! ## Shaped blocks -/

namespace Block

/-- The rotation of a block is reduced by the symmetry of its type, and its cells are those that its
footprint covers where it is. -/
structure Shaped (b : Block) : Prop where
  reduced : b.blockType.normalize b.rotation = b.rotation
  cells_eq : b.cells = b.covered

/-- Computing the cells anew shapes a block whose rotation is reduced. -/
theorem shaped_refresh {b : Block} (h : b.blockType.normalize b.rotation = b.rotation) :
    b.refresh.Shaped where
  reduced := h
  cells_eq := rfl

/-- Blocks are placed in shape. -/
theorem shaped_place (id : Nat) (t : BlockType) (center : Cell) (degrees : Int32) :
    (place id t center degrees).Shaped :=
  shaped_refresh (t.normalize_normalize degrees)

/-- A block that is moved keeps its rotation, and its cells follow. -/
theorem Shaped.moveTo {b : Block} (h : b.Shaped) (center : Cell) : (b.moveTo center).Shaped :=
  shaped_refresh h.reduced

/-- A turned block is in shape again. -/
theorem shaped_turnBy (b : Block) (degrees : Int32) : (b.turnBy degrees).Shaped :=
  shaped_refresh (b.blockType.normalize_normalize _)

/-- A reduced rotation is a multiple of a quarter turn, and less than the symmetry of the type. -/
theorem Shaped.rotation_range {b : Block} (h : b.Shaped) : b.rotation.toInt % 90 = 0 ∧
    0 ≤ b.rotation.toInt ∧ b.rotation.toInt < b.blockType.symmetry.toInt := by
  have hrotation := b.blockType.toInt_normalize b.rotation
  rw [h.reduced] at hrotation
  have hsnap := BlockType.snap_emod_ninety b.rotation
  rcases b.blockType.toInt_symmetry with hs | hs <;> rw [hs] at hrotation ⊢ <;> omega

/-- A block that is moved to its own centre stays as it is. -/
theorem Shaped.moveTo_center {b : Block} (h : b.Shaped) : b.moveTo b.center = b := by
  rw [Block.moveTo, refresh]
  exact congrArg (fun cells => { b with cells }) h.cells_eq.symm

/-- A block that is turned by nothing stays as it is. -/
theorem Shaped.turnBy_zero {b : Block} (h : b.Shaped) : b.turnBy 0 = b := by
  have hrotation : b.blockType.normalize (b.rotation + Int32.ofInt ((0 : Int32).toInt % 360)) =
      b.rotation := by
    rw [show Int32.ofInt ((0 : Int32).toInt % 360) = 0 from rfl, Int32.add_zero, h.reduced]
  rw [turnBy, hrotation, refresh]
  exact congrArg (fun cells => { b with cells }) h.cells_eq.symm

/-- A turn adds the snapped angle to the rotation, modulo the symmetry of the type. -/
theorem Shaped.rotation_turnBy {b : Block} (h : b.Shaped) (degrees : Int32) :
    (b.turnBy degrees).rotation.toInt =
      (b.rotation.toInt + BlockType.snap degrees) % b.blockType.symmetry.toInt := by
  obtain ⟨hquarter, hlow, hhigh⟩ := h.rotation_range
  have hadded : (Int32.ofInt (degrees.toInt % 360)).toInt = degrees.toInt % 360 :=
    Int32.toInt_ofInt_of_le (by omega) (by omega)
  rw [turnBy, refresh, BlockType.toInt_normalize, BlockType.snap, BlockType.snap, Int32.toInt_add,
    hadded]
  rcases b.blockType.toInt_symmetry with hs | hs <;> rw [hs] at hhigh ⊢
  · omega
  · rw [Int.bmod_eq_of_le (by omega) (by omega)]
    omega

/-- Two turns come to the same if they differ by a multiple of the symmetry. -/
theorem Shaped.turnBy_eq_iff {b : Block} (h : b.Shaped) (m n : Int32) :
    b.turnBy m = b.turnBy n ↔
      b.blockType.symmetry.toInt ∣ BlockType.snap m - BlockType.snap n := by
  have hrotation : b.turnBy m = b.turnBy n ↔ (b.turnBy m).rotation = (b.turnBy n).rotation :=
    ⟨congrArg rotation, fun heq => congrArg (fun r => refresh { b with rotation := r }) heq⟩
  have hdifference : b.rotation.toInt + BlockType.snap m - (b.rotation.toInt + BlockType.snap n) =
      BlockType.snap m - BlockType.snap n := by omega
  rw [hrotation, ← Int32.toInt_inj, h.rotation_turnBy, h.rotation_turnBy,
    Int.emod_eq_emod_iff_emod_sub_eq_zero, hdifference, Int.dvd_iff_emod_eq_zero]

/-- The cells of a block are the footprint of its rotation, moved to its centre. -/
theorem Shaped.coordinates_cells {b : Block} (h : b.Shaped) :
    b.cells.map Cell.coordinates = (b.blockType.footprint b.rotation).map fun o =>
      (Cell.saturate (b.center.x.toInt + o.1.toInt), Cell.saturate (b.center.y.toInt + o.2.toInt),
        b.center.z.toInt) := by
  rw [h.cells_eq, covered, List.map_map]
  apply List.map_congr_left
  rintro ⟨dx, dy⟩ -
  simp only [Function.comp_apply, Cell.coordinates, Cell.shift, Cell.toInt_addClamped]

/-! ## Turned blocks -/

/-- The one block is the other one after a turn by some degrees. -/
structure Turned (degrees : Int) (b b' : Block) : Prop where
  shaped : b'.Shaped
  center : b'.center = b.center
  blockType : b'.blockType = b.blockType
  rotation : b'.rotation.toInt = (b.rotation.toInt + degrees) % b.blockType.symmetry.toInt

variable {b b' b'' : Block} {m n : Int}

theorem Shaped.turned_zero (h : b.Shaped) : Turned 0 b b where
  shaped := h
  center := rfl
  blockType := rfl
  rotation := by
    obtain ⟨-, hlow, hhigh⟩ := h.rotation_range
    rw [Int.add_zero, Int.emod_eq_of_lt hlow hhigh]

theorem Shaped.turned_turnBy (h : b.Shaped) (degrees : Int32) :
    Turned (BlockType.snap degrees) b (b.turnBy degrees) where
  shaped := b.shaped_turnBy degrees
  center := b.center_turnBy degrees
  blockType := b.blockType_turnBy degrees
  rotation := h.rotation_turnBy degrees

/-- Quarter turns need not be snapped. -/
theorem Shaped.turned_turnBy_quarters (h : b.Shaped) {degrees : Int32}
    (hquarters : 90 ∣ degrees.toInt) : Turned degrees.toInt b (b.turnBy degrees) where
  shaped := b.shaped_turnBy degrees
  center := b.center_turnBy degrees
  blockType := b.blockType_turnBy degrees
  rotation := by
    rw [h.rotation_turnBy, BlockType.snap]
    rcases b.blockType.toInt_symmetry with hs | hs <;> rw [hs] <;> omega

/-- Two turns add up. -/
theorem Turned.trans (h : Turned m b b') (h' : Turned n b' b'') : Turned (m + n) b b'' where
  shaped := h'.shaped
  center := h'.center.trans h.center
  blockType := h'.blockType.trans h.blockType
  rotation := by
    rw [h'.rotation, h.blockType, h.rotation, Int.emod_add_emod, Int.add_assoc]

/-- A block has its rotation again when it was turned by a multiple of its symmetry. -/
theorem Turned.rotation_eq_iff (h : Turned n b b') (hshaped : b.Shaped) :
    b'.rotation = b.rotation ↔ b.blockType.symmetry.toInt ∣ n := by
  obtain ⟨-, hlow, hhigh⟩ := hshaped.rotation_range
  rw [← Int32.toInt_inj, h.rotation]
  rcases b.blockType.toInt_symmetry with hs | hs <;> rw [hs] at hhigh ⊢ <;> omega

end Block

end BlockArm
