/-
# Turns of a block

A block that is turned by one angle after the other is turned by their sum, each of them snapped to the
nearest multiple of 90 degrees, and its rotation is reduced by the symmetry of its type.  So the order of
the turns does not matter, and the turns by multiples of 90 degrees act on blocks like these multiples
under addition.  None of the numbers on the way needs more than 32 bits.

* `BlockType.quarter`: the multiple of 90 nearest to an angle;
* `Block.turnAll`: turns one after the other; `Block.Shaped.turned_turnAll` adds them up;
* `Block.ActedOn`: what the turns of a block have from addition;
* `BlockType.normalize?`, `Block.turnBy?`, `Block.place?`: the same arithmetic, with every number on the
  way held against the range of 32 bits;
* `Block.rotation_turnAll`: all of this, for a block that was placed and turned since.
-/
import BlockArm.Proofs.Block.Shape
import Mathlib

namespace BlockArm

open Text (int32?)

/-! ## Snapped angles -/

namespace BlockType

/-- The multiple of 90 nearest to an angle, a tie going up. -/
def quarter (degrees : Int) : Int := (degrees + 45) / 90 * 90

theorem dvd_quarter (n : Int) : 90 ∣ quarter n := Int.dvd_mul_left _ _

/-- No multiple of 90 is nearer, and none that is as near is larger. -/
theorem quarter_nearest (n : Int) {q : Int} (hq : 90 ∣ q) :
    (quarter n - n).natAbs ≤ (q - n).natAbs ∧
      ((q - n).natAbs = (quarter n - n).natAbs → q ≤ quarter n) := by
  unfold quarter
  omega

theorem quarter_of_dvd {n : Int} (h : 90 ∣ n) : quarter n = n := by
  unfold quarter
  omega

theorem quarter_add_of_dvd {m : Int} (h : 90 ∣ m) (n : Int) : quarter (m + n) = m + quarter n := by
  unfold quarter
  omega

/-- Snapping forgets full turns first. -/
theorem snap_eq_quarter_sub (degrees : Int32) :
    snap degrees = quarter degrees.toInt - degrees.toInt / 360 * 360 := by
  unfold snap quarter
  omega

theorem symmetry_dvd_turn (t : BlockType) : t.symmetry.toInt ∣ 360 := by
  rcases t.toInt_symmetry with hs | hs <;> rw [hs] <;> decide

/-- Full turns are nothing up to the symmetry. -/
theorem symmetry_dvd_snap_sub (t : BlockType) (degrees : Int32) :
    t.symmetry.toInt ∣ snap degrees - quarter degrees.toInt := by
  have hdifference : snap degrees - quarter degrees.toInt = 360 * -(degrees.toInt / 360) := by
    rw [snap_eq_quarter_sub]
    omega
  rw [hdifference]
  exact (t.symmetry_dvd_turn).mul_right _

/-- A footprint is that of the reduced rotation. -/
theorem footprint_normalize (t : BlockType) (degrees : Int32) :
    t.footprint (t.normalize degrees) = t.footprint degrees := by
  unfold footprint extents
  rw [normalize_normalize]

end BlockType

/-! ## Turns one after the other -/

namespace Block

variable {b b' b'' : Block} {m n : Int}

/-- The block after several turns. -/
def turnAll (b : Block) (turns : List Int32) : Block := turns.foldl turnBy b

@[simp] theorem id_turnAll (b : Block) (turns : List Int32) : (b.turnAll turns).id = b.id := by
  induction turns generalizing b with
  | nil => rfl
  | cons d turns ih => exact (ih (b.turnBy d)).trans (b.id_turnBy d)

/-- A block in shape is known by its number, its type, its centre and its rotation. -/
theorem Shaped.eq_of (h : b.Shaped) (h' : b'.Shaped) (hid : b.id = b'.id)
    (htype : b.blockType = b'.blockType) (hcenter : b.center = b'.center)
    (hrotation : b.rotation = b'.rotation) : b = b' := by
  have hcells : b.cells = b'.cells := by
    rw [h.cells_eq, h'.cells_eq, covered, covered, htype, hcenter, hrotation]
  cases b
  cases b'
  simp_all only

/-- Turns that differ by a multiple of the symmetry are the same turn. -/
theorem Turned.congr (h : Turned m b b') (hmod : b.blockType.symmetry.toInt ∣ m - n) :
    Turned n b b' where
  shaped := h.shaped
  center := h.center
  blockType := h.blockType
  rotation := by
    have hdifference : b.rotation.toInt + m - (b.rotation.toInt + n) = m - n := by omega
    rw [h.rotation, Int.emod_eq_emod_iff_emod_sub_eq_zero, hdifference]
    exact Int.emod_eq_zero_of_dvd hmod

/-- A block turned by as much in two ways is one block. -/
theorem Turned.eq_of (h : Turned m b b') (h' : Turned m b b'') (hid : b'.id = b''.id) :
    b' = b'' := by
  refine h.shaped.eq_of h'.shaped hid (h.blockType.trans h'.blockType.symm)
    (h.center.trans h'.center.symm) (Int32.toInt_inj.mp ?_)
  rw [h.rotation, h'.rotation]

/-- A turn brings a block on by the multiple of 90 that is nearest to its angle. -/
theorem Shaped.turned_quarter (h : b.Shaped) (degrees : Int32) :
    Turned (BlockType.quarter degrees.toInt) b (b.turnBy degrees) :=
  (h.turned_turnBy degrees).congr (b.blockType.symmetry_dvd_snap_sub degrees)

/-- Several turns bring it on by the sum of these. -/
theorem Shaped.turned_turnAll (h : b.Shaped) (turns : List Int32) :
    Turned (turns.map fun d => BlockType.quarter d.toInt).sum b (b.turnAll turns) := by
  induction turns generalizing b with
  | nil => exact h.turned_zero
  | cons d turns ih =>
    rw [List.map_cons, List.sum_cons]
    exact (h.turned_quarter d).trans (ih (b.shaped_turnBy d))

/-! ## The action of the turns -/

/-- Turns by multiples of 90 degrees act on the block as a group, and the order of turns by any angles
does not matter. -/
structure ActedOn (b : Block) : Prop where
  zero : b.turnBy 0 = b
  add : ∀ m n k : Int32, 90 ∣ m.toInt → 90 ∣ n.toInt → k.toInt = m.toInt + n.toInt →
    (b.turnBy m).turnBy n = b.turnBy k
  neg : ∀ m : Int32, 90 ∣ m.toInt → (b.turnBy m).turnBy (-m) = b
  perm : ∀ turns turns' : List Int32, turns.Perm turns' → b.turnAll turns = b.turnAll turns'

/-- The opposite of a multiple of 90 is in the range of 32 bits, since the lowest number there is
none. -/
theorem toInt_neg_of_dvd {m : Int32} (h : 90 ∣ m.toInt) : (-m).toInt = -m.toInt := by
  have hlow := m.le_toInt
  have hhigh := m.toInt_lt
  rw [Int32.toInt_neg, Int.bmod_eq_of_le (by omega) (by omega)]

/-- Every block in shape is acted on. -/
theorem Shaped.actedOn (h : b.Shaped) : b.ActedOn where
  zero := h.turnBy_zero
  add m n k hm hn hk := by
    have htwice := (h.turned_quarter m).trans ((b.shaped_turnBy m).turned_quarter n)
    have honce := h.turned_quarter k
    rw [hk, BlockType.quarter_add_of_dvd hm] at honce
    rw [BlockType.quarter_of_dvd hm] at htwice
    exact htwice.eq_of honce (by rw [id_turnBy, id_turnBy, id_turnBy])
  neg m hm := by
    have htwice := (h.turned_quarter m).trans ((b.shaped_turnBy m).turned_quarter (-m))
    rw [toInt_neg_of_dvd hm, BlockType.quarter_of_dvd hm,
      BlockType.quarter_of_dvd (Int.dvd_neg.mpr hm), Int.add_right_neg] at htwice
    exact htwice.eq_of h.turned_zero (by rw [id_turnBy, id_turnBy])
  perm turns turns' hperm := by
    have hturned := h.turned_turnAll turns
    rw [(hperm.map _).sum_eq] at hturned
    exact hturned.eq_of (h.turned_turnAll turns') (by rw [id_turnAll, id_turnAll])

end Block

/-! ## The range of 32 bits -/

/-- A number in the range of 32 bits is one of 32 bits. -/
theorem int32?_of_range {n : Int} (hlow : -2147483648 ≤ n) (hhigh : n ≤ 2147483647) :
    int32? n = some (Int32.ofInt n) := if_pos ⟨hlow, hhigh⟩

/-- A reduced rotation, if no number on the way leaves the range of 32 bits. -/
def BlockType.normalize? (t : BlockType) (degrees : Int32) : Option Int32 := do
  let within ← int32? (degrees.toInt % 360)
  let raised ← int32? (within.toInt + 45)
  let quarters ← int32? (raised.toInt / 90)
  let snapped ← int32? (quarters.toInt * 90)
  int32? (snapped.toInt % t.symmetry.toInt)

/-- None does. -/
theorem BlockType.normalize?_eq (t : BlockType) (degrees : Int32) :
    t.normalize? degrees = some (t.normalize degrees) := by
  have hfits : ∀ n : Int, 0 ≤ n → n ≤ 404 → int32? n = some (Int32.ofInt n) ∧
      (Int32.ofInt n).toInt = n := fun n hlow hhigh =>
    ⟨int32?_of_range (by omega) (by omega), Int32.toInt_ofInt_of_le (by omega) (by omega)⟩
  obtain ⟨hwithin, hwithin'⟩ := hfits (degrees.toInt % 360) (by omega) (by omega)
  obtain ⟨hraised, hraised'⟩ := hfits (degrees.toInt % 360 + 45) (by omega) (by omega)
  obtain ⟨hquarters, hquarters'⟩ := hfits ((degrees.toInt % 360 + 45) / 90) (by omega) (by omega)
  obtain ⟨hsnapped, hsnapped'⟩ := hfits (snap degrees) (by unfold snap; omega)
    (by unfold snap; omega)
  obtain ⟨hreduced, -⟩ := hfits (snap degrees % t.symmetry.toInt)
    (by rcases t.snap_emod_symmetry degrees with h | h <;> omega)
    (by rcases t.snap_emod_symmetry degrees with h | h <;> omega)
  rw [snap] at hsnapped hsnapped' hreduced
  simp only [normalize?, normalize, snap, hwithin, hwithin', hraised, hraised', hquarters,
    hquarters', hsnapped, hsnapped', hreduced, Option.bind_eq_bind, Option.bind_some]

namespace Block

variable {b : Block}

/-- A block at a cell, if no number on the way to its rotation leaves the range of 32 bits. -/
def place? (id : Nat) (blockType : BlockType) (center : Cell) (degrees : Int32) : Option Block := do
  let rotation ← blockType.normalize? degrees
  some (refresh { id, blockType, center, rotation })

/-- The block after a turn, if no number on the way to its rotation leaves that range. -/
def turnBy? (b : Block) (degrees : Int32) : Option Block := do
  let within ← int32? (degrees.toInt % 360)
  let sum ← int32? (b.rotation.toInt + within.toInt)
  let rotation ← b.blockType.normalize? sum
  some (refresh { b with rotation })

/-- The block after several turns, if no number on the way leaves that range. -/
def turnAll? (b : Block) (turns : List Int32) : Option Block := turns.foldlM turnBy? b

theorem place?_eq (id : Nat) (t : BlockType) (center : Cell) (degrees : Int32) :
    place? id t center degrees = some (place id t center degrees) := by
  rw [place?, t.normalize?_eq]
  rfl

/-- The rotation of a block in shape leaves room for one more turn. -/
theorem Shaped.turnBy?_eq (h : b.Shaped) (degrees : Int32) :
    b.turnBy? degrees = some (b.turnBy degrees) := by
  obtain ⟨-, hlow, hhigh⟩ := h.rotation_range
  have hsymmetry := b.blockType.toInt_symmetry
  have hwithin := int32?_of_range (n := degrees.toInt % 360) (by omega) (by omega)
  have hadded : (Int32.ofInt (degrees.toInt % 360)).toInt = degrees.toInt % 360 :=
    Int32.toInt_ofInt_of_le (by omega) (by omega)
  have hsum : (b.rotation + Int32.ofInt (degrees.toInt % 360)).toInt =
      b.rotation.toInt + degrees.toInt % 360 := by
    rw [Int32.toInt_add, hadded, Int.bmod_eq_of_le (by omega) (by omega)]
  have hfits := Text.int32?_toInt (b.rotation + Int32.ofInt (degrees.toInt % 360))
  rw [hsum] at hfits
  simp only [turnBy?, turnBy, hwithin, hadded, hfits, BlockType.normalize?_eq, Option.bind_eq_bind,
    Option.bind_some]

theorem Shaped.turnAll?_eq (h : b.Shaped) (turns : List Int32) :
    b.turnAll? turns = some (b.turnAll turns) := by
  induction turns generalizing b with
  | nil => rfl
  | cons d turns ih =>
    rw [turnAll?, List.foldlM_cons, h.turnBy?_eq]
    exact ih (b.shaped_turnBy d)

/-! ## Rotations -/

/-- **The rotation of a block** that was placed and turned since is the sum of the rotation it was placed
with and of the multiples of 90 nearest to the angles it was turned by, modulo the symmetry of its type.
Of two multiples that are nearest the larger one is taken.
Turns by multiples of 90 act on it as a group, rotations are reduced once and for all, footprints depend
on reduced rotations only, and no number on the way leaves the range of 32 bits. -/
theorem rotation_turnAll (id : Nat) (t : BlockType) (center : Cell) (start : Int32)
    (turns : List Int32) :
    let b := place id t center start
    b.rotation.toInt = BlockType.quarter start.toInt % t.symmetry.toInt ∧
      (b.turnAll turns).rotation.toInt =
        (b.rotation.toInt + (turns.map fun d => BlockType.quarter d.toInt).sum) %
          t.symmetry.toInt ∧
      (∀ n, 90 ∣ BlockType.quarter n ∧ ∀ q, 90 ∣ q →
        (BlockType.quarter n - n).natAbs ≤ (q - n).natAbs ∧
          ((q - n).natAbs = (BlockType.quarter n - n).natAbs → q ≤ BlockType.quarter n)) ∧
      (b.turnAll turns).ActedOn ∧
      (∀ r, t.normalize (t.normalize r) = t.normalize r) ∧
      (∀ r, t.footprint r = t.footprint (t.normalize r)) ∧
      (∀ r, t.normalize? r = some (t.normalize r)) ∧
      (place? id t center start).bind (turnAll? · turns) = some (b.turnAll turns) := by
  intro b
  have hshaped : b.Shaped := shaped_place id t center start
  have hturned := hshaped.turned_turnAll turns
  have hstart : b.rotation.toInt = BlockType.quarter start.toInt % t.symmetry.toInt := by
    have hnormalize : b.rotation.toInt = BlockType.snap start % t.symmetry.toInt :=
      t.toInt_normalize start
    rw [hnormalize, Int.emod_eq_emod_iff_emod_sub_eq_zero]
    exact Int.emod_eq_zero_of_dvd (t.symmetry_dvd_snap_sub start)
  have hchecked : (place? id t center start).bind (turnAll? · turns) =
      some (b.turnAll turns) := by
    rw [place?_eq]
    exact hshaped.turnAll?_eq turns
  exact ⟨hstart, hturned.rotation,
    fun n => ⟨BlockType.dvd_quarter n, fun _ => BlockType.quarter_nearest n⟩,
    hturned.shaped.actedOn, t.normalize_normalize, fun r => (t.footprint_normalize r).symm,
    t.normalize?_eq, hchecked⟩

/-- A plank that lies across and is turned by the ends of the range lies across again. -/
example : ((place 0 ⟨"plank", 2, 1⟩ ⟨3, 4, 1⟩ 90).turnAll [2147483647, -2147483648]).rotation = 90 := by
  decide

end Block

end BlockArm
