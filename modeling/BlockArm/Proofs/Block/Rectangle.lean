/-
# The rectangle that a block covers

However a block was moved and turned since it was placed, its cells are those of a rectangle around
its centre, as many as the sides say.  Where the rectangle leaves the range of coordinates, the cells
beyond stop at its end: the block covers what there is of the rectangle, and some cells come more
than once.

* `Block.Edit`, `Block.editAll`: changes of a block, one after the other;
* `BlockType.exists_addClamped_iff`: the coordinates that a side reaches;
* `BlockType.injective_addClamped_iff`: when no two offsets along a side lead to one coordinate;
* `Block.cells_editAll`: which cells a block covers, and when none of them comes twice.
-/
import BlockArm.Proofs.Block.Footprint
import Mathlib.Data.List.ProdSigma

namespace BlockArm

/-! ## Changes of a block -/

namespace Block

/-- A change of a block. -/
inductive Edit where
  | moveTo (center : Cell)
  | turnBy (degrees : Int32)

/-- The block after a change. -/
def edit (b : Block) : Edit → Block
  | .moveTo center => b.moveTo center
  | .turnBy degrees => b.turnBy degrees

/-- The block after several changes. -/
def editAll (b : Block) (edits : List Edit) : Block := edits.foldl edit b

variable {b : Block}

theorem Shaped.edit (h : b.Shaped) (e : Edit) : (b.edit e).Shaped := by
  cases e with
  | moveTo center => exact h.moveTo center
  | turnBy degrees => exact shaped_turnBy b degrees

theorem blockType_edit (b : Block) (e : Edit) : (b.edit e).blockType = b.blockType := by
  cases e with
  | moveTo center => exact b.blockType_moveTo center
  | turnBy degrees => exact b.blockType_turnBy degrees

/-- Changes keep a block in shape, and they keep its type. -/
theorem Shaped.editAll (h : b.Shaped) (edits : List Edit) :
    (b.editAll edits).Shaped ∧ (b.editAll edits).blockType = b.blockType := by
  induction edits generalizing b with
  | nil => exact ⟨h, rfl⟩
  | cons e edits ih =>
    obtain ⟨hshaped, htype⟩ := ih (h.edit e)
    exact ⟨hshaped, htype.trans (b.blockType_edit e)⟩

end Block

/-! ## One side -/

/-- A side reaches from its lowest to its highest coordinate, the centre in the middle or just below
it.  These need not be coordinates of 32 bits. -/
def Spans (center extent : Int32) (n : Int) : Prop :=
  center.toInt - (extent.toInt - 1) / 2 ≤ n ∧ n ≤ center.toInt + extent.toInt / 2

/-- All that a side reaches is in the range of coordinates. -/
def SpanFits (center extent : Int32) : Prop :=
  -2147483648 ≤ center.toInt - (extent.toInt - 1) / 2 ∧
    center.toInt + extent.toInt / 2 ≤ 2147483647

instance (center extent : Int32) (n : Int) : Decidable (Spans center extent n) :=
  inferInstanceAs (Decidable (_ ∧ _))

instance (center extent : Int32) : Decidable (SpanFits center extent) :=
  inferInstanceAs (Decidable (_ ∧ _))

namespace BlockType

open Cell (addClamped toInt_addClamped saturate)

variable {extent : Int32}

/-- The offsets of a side lead to the coordinates that it reaches, as far as there are any. -/
theorem exists_addClamped_iff (h : 1 ≤ extent.toInt ∧ extent.toInt ≤ 16) (center n : Int32) :
    (∃ d ∈ offsets extent, addClamped center d = n) ↔ Spans center extent n.toInt := by
  have hlow := n.le_toInt
  have hhigh := n.toInt_lt
  have hlow' := center.le_toInt
  have hhigh' := center.toInt_lt
  simp only [mem_offsets_iff h, Spans]
  constructor
  · rintro ⟨d, hd, rfl⟩
    rw [toInt_addClamped, saturate]
    omega
  · intro hn
    refine ⟨Int32.ofInt (n.toInt - center.toInt), ?_, ?_⟩
    · rw [Int32.toInt_ofInt_of_le (by omega) (by omega)]
      omega
    · rw [← Int32.toInt_inj, toInt_addClamped, Int32.toInt_ofInt_of_le (by omega) (by omega),
        saturate]
      omega

/-- Different offsets of a side lead to different coordinates just if all of these are in range. -/
theorem injective_addClamped_iff (h : 1 ≤ extent.toInt ∧ extent.toInt ≤ 16) (center : Int32) :
    (∀ d ∈ offsets extent, ∀ d' ∈ offsets extent,
      addClamped center d = addClamped center d' → d = d') ↔ SpanFits center extent := by
  simp only [mem_offsets_iff h, SpanFits, ← Int32.toInt_inj, toInt_addClamped, saturate]
  constructor
  · intro hinj
    have hlow := center.le_toInt
    have hhigh := center.toInt_lt
    -- at an end that is out of range, the last two offsets lead to one coordinate
    have hpair : ∀ n m : Int, n ≠ m → -16 ≤ n ∧ n ≤ 16 → -16 ≤ m ∧ m ≤ 16 →
        ((Int32.ofInt n).toInt = n ∧ (Int32.ofInt m).toInt = m) := fun n m _ hn hm =>
      ⟨Int32.toInt_ofInt_of_le (by omega) (by omega),
        Int32.toInt_ofInt_of_le (by omega) (by omega)⟩
    by_contra hout
    by_cases hbelow : center.toInt - (extent.toInt - 1) / 2 < -2147483648
    · obtain ⟨hn, hm⟩ := hpair (-((extent.toInt - 1) / 2)) (-((extent.toInt - 1) / 2) + 1)
        (by omega) (by omega) (by omega)
      have heq := hinj (Int32.ofInt (-((extent.toInt - 1) / 2))) (by omega)
        (Int32.ofInt (-((extent.toInt - 1) / 2) + 1)) (by omega) (by omega)
      omega
    · obtain ⟨hn, hm⟩ := hpair (extent.toInt / 2) (extent.toInt / 2 - 1)
        (by omega) (by omega) (by omega)
      have heq := hinj (Int32.ofInt (extent.toInt / 2)) (by omega)
        (Int32.ofInt (extent.toInt / 2 - 1)) (by omega) (by omega)
      omega
  · rintro ⟨hlow, hhigh⟩ d hd d' hd' heq
    omega

end BlockType

/-! ## Both sides -/

namespace Block

variable {b : Block}

/-- The sides of a block that is turned by a quarter are those of its type in the other order. -/
theorem Shaped.extents_eq (h : b.Shaped) : b.blockType.extents b.rotation =
    if b.rotation = 90 then (b.blockType.depth, b.blockType.width)
    else (b.blockType.width, b.blockType.depth) := by
  obtain ⟨hquarter, hlow, hhigh⟩ := h.rotation_range
  have hiff : b.rotation.toInt % 180 = 90 ↔ b.rotation = 90 := by
    have hninety : (90 : Int32).toInt = 90 := rfl
    rw [← Int32.toInt_inj, hninety]
    rcases b.blockType.toInt_symmetry with hs | hs <;> rw [hs] at hhigh <;> omega
  rw [BlockType.extents, h.reduced, if_congr hiff rfl rfl]

/-- A block covers the cells at the height of its centre that both its sides reach. -/
theorem Shaped.mem_cells_iff (h : b.Shaped) (hsized : b.blockType.Sized) (c : Cell) :
    c ∈ b.cells ↔ c.z = b.center.z ∧
      Spans b.center.x (b.blockType.extents b.rotation).1 c.x.toInt ∧
      Spans b.center.y (b.blockType.extents b.rotation).2 c.y.toInt := by
  obtain ⟨hfirst, hsecond⟩ := hsized.extents b.rotation
  rw [h.cells_eq, covered, hsized.footprint_eq, ← BlockType.exists_addClamped_iff hfirst,
    ← BlockType.exists_addClamped_iff hsecond]
  simp only [List.mem_map, Prod.exists, List.pair_mem_product]
  constructor
  · rintro ⟨dx, dy, ⟨hdx, hdy⟩, rfl⟩
    exact ⟨rfl, ⟨dx, hdx, rfl⟩, dy, hdy, rfl⟩
  · rintro ⟨hz, ⟨dx, hdx, hx⟩, dy, hdy, hy⟩
    refine ⟨dx, dy, ⟨hdx, hdy⟩, ?_⟩
    rw [Cell.shift, hx, hy, ← hz]

/-- A block covers as many cells as its sides say, if those are counted that come twice. -/
theorem Shaped.length_cells (h : b.Shaped) (hsized : b.blockType.Sized) :
    (b.cells.length : Int) = b.blockType.width.toInt * b.blockType.depth.toInt := by
  obtain ⟨hwidth, hdepth⟩ := hsized
  have hsides : (b.blockType.extents b.rotation).1.toInt.toNat *
      (b.blockType.extents b.rotation).2.toInt.toNat =
        b.blockType.width.toInt.toNat * b.blockType.depth.toInt.toNat := by
    rw [h.extents_eq]
    split
    · exact Nat.mul_comm _ _
    · rfl
  have hpairs := List.length_product (BlockType.offsets (b.blockType.extents b.rotation).1)
    (BlockType.offsets (b.blockType.extents b.rotation).2)
  rw [BlockType.length_offsets, BlockType.length_offsets, hsides] at hpairs
  rw [h.cells_eq, covered, List.length_map, BlockType.Sized.footprint_eq ⟨hwidth, hdepth⟩]
  refine (congrArg Nat.cast hpairs).trans ?_
  push_cast
  rw [Int.toNat_of_nonneg (by omega), Int.toNat_of_nonneg (by omega)]

/-- No cell of a block comes twice just if its whole rectangle is in the range of coordinates. -/
theorem Shaped.nodup_cells_iff (h : b.Shaped) (hsized : b.blockType.Sized) :
    b.cells.Nodup ↔ SpanFits b.center.x (b.blockType.extents b.rotation).1 ∧
      SpanFits b.center.y (b.blockType.extents b.rotation).2 := by
  obtain ⟨hfirst, hsecond⟩ := hsized.extents b.rotation
  rw [h.cells_eq, covered, List.nodup_map_iff_inj_on (hsized.nodup_footprint b.rotation),
    hsized.footprint_eq, ← BlockType.injective_addClamped_iff hfirst,
    ← BlockType.injective_addClamped_iff hsecond]
  simp only [Prod.forall, List.pair_mem_product, Cell.shift, Cell.mk.injEq, Prod.mk.injEq]
  have hzero : (0 : Int32).toInt = 0 := rfl
  have horigin : (0 : Int32) ∈ BlockType.offsets (b.blockType.extents b.rotation).1 ∧
      (0 : Int32) ∈ BlockType.offsets (b.blockType.extents b.rotation).2 := by
    rw [BlockType.mem_offsets_iff hfirst, BlockType.mem_offsets_iff hsecond, hzero]
    omega
  constructor
  · intro hinj
    exact ⟨fun d hd d' hd' heq =>
        (hinj d 0 ⟨hd, horigin.2⟩ d' 0 ⟨hd', horigin.2⟩ ⟨heq, rfl, trivial⟩).1,
      fun d hd d' hd' heq =>
        (hinj 0 d ⟨horigin.1, hd⟩ 0 d' ⟨horigin.1, hd'⟩ ⟨rfl, heq, trivial⟩).2⟩
  · rintro ⟨hx, hy⟩ dx dy hd dx' dy' hd' ⟨hxeq, hyeq, -⟩
    exact ⟨hx dx hd.1 dx' hd'.1 hxeq, hy dy hd.2 dy' hd'.2 hyeq⟩

/-- **The cells of a block.**  Placed anywhere, and moved and turned any number of times, a block
whose sides fit has as many cells as its sides say, all at the height of its centre and the centre
among them.  They are the cells of the rectangle around the centre, its sides exchanged just if the
rotation is a quarter turn, as far as the rectangle lies in the range of coordinates; and no cell
comes twice just if all of it does. -/
theorem cells_editAll (id : Nat) {t : BlockType} (hsized : t.Sized) (center : Cell)
    (degrees : Int32) (edits : List Edit) :
    let b := (place id t center degrees).editAll edits
    let sides := if b.rotation = 90 then (t.depth, t.width) else (t.width, t.depth)
    t.normalize b.rotation = b.rotation ∧
      (b.cells.length : Int) = t.width.toInt * t.depth.toInt ∧
      (∀ c ∈ b.cells, c.z = b.center.z) ∧ b.center ∈ b.cells ∧
      (∀ c, c ∈ b.cells ↔ c.z = b.center.z ∧
        Spans b.center.x sides.1 c.x.toInt ∧ Spans b.center.y sides.2 c.y.toInt) ∧
      (b.cells.Nodup ↔ SpanFits b.center.x sides.1 ∧ SpanFits b.center.y sides.2) := by
  intro b sides
  obtain ⟨hshaped, htype⟩ : b.Shaped ∧ b.blockType = t :=
    (shaped_place id t center degrees).editAll edits
  have hextents : b.blockType.extents b.rotation = sides := by rw [hshaped.extents_eq, htype]
  rw [← htype] at hsized
  have hlength := hshaped.length_cells hsized
  have hreduced := hshaped.reduced
  rw [htype] at hlength hreduced
  refine ⟨hreduced, hlength, fun c => hshaped.z_of_mem_cells, hshaped.center_mem_cells hsized,
    fun c => ?_, ?_⟩
  · rw [hshaped.mem_cells_iff hsized, hextents]
  · rw [hshaped.nodup_cells_iff hsized, hextents]

/-- A board of two by three cells, moved into a corner of the range and turned by a quarter. -/
theorem cells_cornered :
    let b := (place 0 ⟨"board", 2, 3⟩ ⟨3, 4, 1⟩ 0).editAll
      [.moveTo ⟨2147483647, -2147483648, 1⟩, .turnBy 90]
    (⟨"board", 2, 3⟩ : BlockType).Sized ∧ (b.cells.length : Int) = 6 ∧ b.center ∈ b.cells ∧
      ¬ b.cells.Nodup := by
  have hsized : (⟨"board", 2, 3⟩ : BlockType).Sized := ⟨by decide, by decide⟩
  obtain ⟨-, hlength, -, hcenter, -, hnodup⟩ := cells_editAll 0 hsized ⟨3, 4, 1⟩ 0
    [.moveTo ⟨2147483647, -2147483648, 1⟩, .turnBy 90]
  refine ⟨hsized, hlength, hcenter, fun h => ?_⟩
  exact absurd (hnodup.mp h) (by decide)

/-- A plank at the end of the range lies twice in the last cell. -/
theorem not_nodup_cells_plank : ∃ (t : BlockType) (center : Cell) (degrees : Int32),
    t.Sized ∧ ¬ (place 0 t center degrees).cells.Nodup :=
  ⟨⟨"plank", 2, 1⟩, ⟨2147483647, 0, 0⟩, 0, ⟨by decide, by decide⟩, by decide⟩

end Block

end BlockArm
