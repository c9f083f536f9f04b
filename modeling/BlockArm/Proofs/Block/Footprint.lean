/-
# The cells of a footprint

A block whose sides are from one to sixteen cells long covers as many cells as these sides say, the
centre among them and all at the height of the centre.  Only near the ends of the range of
coordinates, where sums stop, may several offsets lead to one cell.

* `BlockType.Sized`: sides of such a length;
* `BlockType.Sized.nodup_footprint`, `Block.Shaped.nodup_cells`: no offset and no cell comes twice;
* `Block.Shaped.center_mem_cells`, `Block.Shaped.z_of_mem_cells`: the centre and the height.
-/
import BlockArm.Proofs.Block.Shape
import Mathlib.Data.List.Nodup

namespace BlockArm

/-! ## Offsets -/

namespace BlockType

/-- Both sides are at least one cell and at most sixteen cells long. -/
structure Sized (t : BlockType) : Prop where
  width : 1 ≤ t.width.toInt ∧ t.width.toInt ≤ 16
  depth : 1 ≤ t.depth.toInt ∧ t.depth.toInt ≤ 16

variable {t : BlockType} {extent : Int32}

/-- A turned block has the sides of its type in one order or the other. -/
theorem Sized.extents (h : t.Sized) (rotation : Int32) :
    (1 ≤ (t.extents rotation).1.toInt ∧ (t.extents rotation).1.toInt ≤ 16) ∧
      (1 ≤ (t.extents rotation).2.toInt ∧ (t.extents rotation).2.toInt ≤ 16) := by
  unfold BlockType.extents
  split
  · exact ⟨h.depth, h.width⟩
  · exact ⟨h.width, h.depth⟩

/-- With the sides of a type that fits, the footprint has all pairs of offsets. -/
theorem Sized.footprint_eq (h : t.Sized) (rotation : Int32) : t.footprint rotation =
    (offsets (t.extents rotation).1).product (offsets (t.extents rotation).2) := by
  obtain ⟨⟨hfirst, -⟩, ⟨hsecond, -⟩⟩ := h.extents rotation
  have hzero : (0 : Int32).toInt = 0 := rfl
  have hpositive : ¬ ((t.extents rotation).1 ≤ 0 ∨ (t.extents rotation).2 ≤ 0) := by
    simp only [Int32.le_iff_toInt_le, hzero]
    omega
  simp only [footprint, if_neg hpositive]
  rfl

/-- The offsets along a side reach as far down as up, or one cell less. -/
theorem mem_offsets_iff (h : 1 ≤ extent.toInt ∧ extent.toInt ≤ 16) (d : Int32) :
    d ∈ offsets extent ↔ -((extent.toInt - 1) / 2) ≤ d.toInt ∧ d.toInt ≤ extent.toInt / 2 := by
  simp only [offsets, List.mem_map, List.mem_range]
  constructor
  · rintro ⟨i, hi, rfl⟩
    rw [Int32.toInt_ofInt_of_le (by omega) (by omega)]
    omega
  · rintro ⟨hlow, hhigh⟩
    refine ⟨(d.toInt + (extent.toInt - 1) / 2).toNat, by omega, ?_⟩
    rw [Int.toNat_of_nonneg (by omega), Int.add_sub_cancel, Int32.ofInt_toInt]

theorem nodup_offsets (h : extent.toInt ≤ 16) : (offsets extent).Nodup := by
  refine List.Nodup.map_on (fun i hi j hj hij => ?_) List.nodup_range
  rw [List.mem_range] at hi hj
  have htoInt := congrArg Int32.toInt hij
  rw [Int32.toInt_ofInt_of_le (by omega) (by omega),
    Int32.toInt_ofInt_of_le (by omega) (by omega)] at htoInt
  omega

theorem Sized.nodup_footprint (h : t.Sized) (rotation : Int32) : (t.footprint rotation).Nodup := by
  obtain ⟨⟨-, hfirst⟩, ⟨-, hsecond⟩⟩ := h.extents rotation
  rw [h.footprint_eq]
  exact (nodup_offsets hfirst).product (nodup_offsets hsecond)

/-- An offset leads less than sixteen cells away. -/
theorem Sized.footprint_range (h : t.Sized) {rotation : Int32} {o : Int32 × Int32}
    (ho : o ∈ t.footprint rotation) :
    (-16 < o.1.toInt ∧ o.1.toInt < 16) ∧ (-16 < o.2.toInt ∧ o.2.toInt < 16) := by
  obtain ⟨hfirst, hsecond⟩ := h.extents rotation
  rw [h.footprint_eq, List.pair_mem_product, mem_offsets_iff hfirst, mem_offsets_iff hsecond] at ho
  omega

end BlockType

/-! ## Cells -/

namespace Cell

/-- The cell is at least sixteen cells away from the ends of the range along both axes. -/
def Inland (c : Cell) : Prop :=
  (-2147483632 ≤ c.x.toInt ∧ c.x.toInt ≤ 2147483631) ∧
    (-2147483632 ≤ c.y.toInt ∧ c.y.toInt ≤ 2147483631)

/-- A coordinate that is moved by nothing stays. -/
theorem addClamped_zero (a : Int32) : addClamped a 0 = a := by
  have hlow := a.le_toInt
  have hhigh := a.toInt_lt
  have hzero : (0 : Int32).toInt = 0 := rfl
  rw [← Int32.toInt_inj, toInt_addClamped, saturate]
  omega

/-- Away from the ends of the range, different offsets lead to different cells. -/
theorem Inland.shift_inj {c : Cell} (hc : c.Inland) {dx dy dx' dy' : Int32}
    (h : (-16 < dx.toInt ∧ dx.toInt < 16) ∧ (-16 < dy.toInt ∧ dy.toInt < 16))
    (h' : (-16 < dx'.toInt ∧ dx'.toInt < 16) ∧ (-16 < dy'.toInt ∧ dy'.toInt < 16))
    (heq : c.shift dx dy = c.shift dx' dy') : dx = dx' ∧ dy = dy' := by
  obtain ⟨hx, hy⟩ := hc
  have hfirst := congrArg (fun cell => cell.x.toInt) heq
  have hsecond := congrArg (fun cell => cell.y.toInt) heq
  simp only [shift, toInt_addClamped, saturate] at hfirst hsecond
  exact ⟨Int32.toInt_inj.mp (by omega), Int32.toInt_inj.mp (by omega)⟩

end Cell

namespace Block

variable {b : Block}

/-- A block is as high as its centre. -/
theorem Shaped.z_of_mem_cells (h : b.Shaped) {cell : Cell} (hcell : cell ∈ b.cells) :
    cell.z = b.center.z := by
  rw [h.cells_eq, covered, List.mem_map] at hcell
  obtain ⟨⟨dx, dy⟩, -, rfl⟩ := hcell
  exact Cell.shift_z b.center dx dy

/-- A block covers the cell that it is held by. -/
theorem Shaped.center_mem_cells (h : b.Shaped) (hsized : b.blockType.Sized) :
    b.center ∈ b.cells := by
  obtain ⟨hfirst, hsecond⟩ := hsized.extents b.rotation
  have hzero : (0 : Int32).toInt = 0 := rfl
  have horigin : ((0 : Int32), (0 : Int32)) ∈ b.blockType.footprint b.rotation := by
    rw [hsized.footprint_eq, List.pair_mem_product, BlockType.mem_offsets_iff hfirst,
      BlockType.mem_offsets_iff hsecond, hzero]
    omega
  rw [h.cells_eq]
  refine List.mem_map.mpr ⟨(0, 0), horigin, ?_⟩
  simp only [Cell.shift, Cell.addClamped_zero]

/-- Away from the ends of the range, no cell of a block comes twice. -/
theorem Shaped.nodup_cells (h : b.Shaped) (hsized : b.blockType.Sized) (hc : b.center.Inland) :
    b.cells.Nodup := by
  rw [h.cells_eq]
  refine List.Nodup.map_on (fun o ho o' ho' heq => ?_) (hsized.nodup_footprint b.rotation)
  obtain ⟨hdx, hdy⟩ := hc.shift_inj (hsized.footprint_range ho) (hsized.footprint_range ho') heq
  exact Prod.ext hdx hdy

end Block

end BlockArm
