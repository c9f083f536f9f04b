/-
# What the operations do to the maps

A world finds a block by its number (`lying`) and by the cells that it covers (`occupied`).  This
file says what a look-up finds after a block was laid down (`laid`) or taken away (`take`), and, for
each of the three operations of the gripper, everything that the operation can do:

* `lay_eq_ok_iff`: when a block can be laid down;
* `grip_cases`, `release_cases`, `turnHeld_cases`: either a fault and the same world, or the one
  change that the operation makes.
-/
import BlockArm.World

namespace BlockArm

namespace World

/-! ## Cells noted and forgotten one by one -/

/-- When each step changes what is found for one cell, several steps change it for these cells. -/
theorem getElem?_foldl (step : Std.ExtHashMap Cell Nat → Cell → Std.ExtHashMap Cell Nat)
    (v : Option Nat) (hstep : ∀ m d c, (step m d)[c]? = if d = c then v else m[c]?)
    (cells : List Cell) (m : Std.ExtHashMap Cell Nat) (c : Cell) :
    (cells.foldl step m)[c]? = if c ∈ cells then v else m[c]? := by
  -- what is found after the first step is changed again only by a later step for the same cell
  induction cells generalizing m with
  | nil => simp
  | cons d cells ih =>
    rw [List.foldl_cons, ih, hstep]
    by_cases hc : c ∈ cells
    · simp [hc]
    · by_cases hd : d = c
      · simp [hc, hd]
      · simp [hc, hd, Ne.symm hd]

/-- A cell is free when no number is noted for it. -/
theorem isOccupied_eq_false_iff (w : World) (c : Cell) :
    w.isOccupied c = false ↔ w.occupied[c]? = none := by
  rw [isOccupied, Std.ExtHashMap.contains_eq_isSome_getElem?, Option.isSome_eq_false_iff,
    Option.isNone_iff_eq_none]

/-- No cell of a list is occupied when none is found that is. -/
theorem find?_isOccupied_eq_none_iff (w : World) (cells : List Cell) :
    cells.find? w.isOccupied = none ↔ ∀ c ∈ cells, w.occupied[c]? = none := by
  simp [List.find?_eq_none, isOccupied_eq_false_iff]

/-! ## Laying -/

/-- The world in which one more block lies, whether there is room for it or not. -/
def laid (w : World) (b : Block) : World :=
  { w with
    lying := w.lying.insert b.id b
    occupied := b.cells.foldl (fun occupied c => occupied.insert c b.id) w.occupied }

@[simp] theorem held_laid (w : World) (b : Block) : (w.laid b).held = w.held := rfl

/-- The new block is found under its number. -/
theorem lying_laid (w : World) (b : Block) (id : Nat) :
    (w.laid b).lying[id]? = if b.id = id then some b else w.lying[id]? := by
  simp [laid, Std.ExtTreeMap.getElem?_insert]

/-- The cells of the new block are noted for its number. -/
theorem occupied_laid (w : World) (b : Block) (c : Cell) :
    (w.laid b).occupied[c]? = if c ∈ b.cells then some b.id else w.occupied[c]? :=
  getElem?_foldl _ _ (fun m d c => by simp [Std.ExtHashMap.getElem?_insert]) _ _ _

/-- A block can be laid down exactly where all its cells are free. -/
theorem lay_eq_ok_iff {w after : World} {b : Block} :
    w.lay b = .ok after ↔ (∀ c ∈ b.cells, w.occupied[c]? = none) ∧ after = w.laid b := by
  unfold lay
  split
  · next c h =>
    refine ⟨fun hc => by simp at hc, fun ⟨hfree, _⟩ => ?_⟩
    rw [(find?_isOccupied_eq_none_iff w _).mpr hfree] at h
    simp at h
  · next h =>
    have hfree := (find?_isOccupied_eq_none_iff w _).mp h
    constructor
    · intro hok
      exact ⟨hfree, (Except.ok.inj hok).symm⟩
    · rintro ⟨-, rfl⟩
      rfl

/-! ## Taking -/

/-- The block that was taken is not found under its number any more. -/
theorem lying_take (w : World) (b : Block) (id : Nat) :
    (w.take b).lying[id]? = if b.id = id then none else w.lying[id]? := by
  simp [take, Std.ExtTreeMap.getElem?_erase]

/-- The cells of the block that was taken are free. -/
theorem occupied_take (w : World) (b : Block) (c : Cell) :
    (w.take b).occupied[c]? = if c ∈ b.cells then none else w.occupied[c]? :=
  getElem?_foldl _ _ (fun m d c => by simp [Std.ExtHashMap.getElem?_erase]) _ _ _

/-! ## What each operation can do -/

/-- Gripping either fails and changes nothing, or an empty gripper takes the block of the cell. -/
theorem grip_cases (w : World) (c : Cell) :
    (∃ fault, w.grip c = (.error fault, w)) ∨
    ∃ id b, w.held = none ∧ w.occupied[c]? = some id ∧ w.lying[id]? = some b ∧
      w.grip c = (.ok b.id, { w.take b with held := some b }) := by
  unfold grip
  split
  · exact Or.inl ⟨_, rfl⟩
  · next hholding =>
    have hheld : w.held = none := by simpa [isHolding] using hholding
    cases hat : w.blockAt? c with
    | none => exact Or.inl ⟨_, rfl⟩
    | some b =>
      obtain ⟨id, hid, hb⟩ := Option.bind_eq_some_iff.mp hat
      exact Or.inr ⟨id, b, hheld, hid, hb, rfl⟩

/-- The centre of a block that is put down at a cell: not below the floor. -/
def landing (w : World) (c : Cell) : Cell :=
  if c.z ≤ w.floorLevel then { c with z := w.floorLevel } else c

/-- At the floor level or higher, a block is put down where it is released. -/
theorem landing_of_floorLevel_le {w : World} {c : Cell} (h : w.floorLevel ≤ c.z) :
    w.landing c = c := by
  unfold landing
  split
  · next hlow => rw [Int32.le_antisymm h hlow]
  · rfl

/-- Releasing a held block ends with the first cell that is in its way, without support, or with
the block on free cells.  The gripper is opened before the block is laid down, and laying it down
cannot fail then. -/
theorem release_of_held {w : World} {b : Block} (hheld : w.held = some b) (c : Cell) :
    w.release c =
      match (b.moveTo (w.landing c)).cells.find? w.isOccupied with
      | some cell => (.error (.cellOccupied cell), w)
      | none =>
        if w.floorLevel < c.z ∧ w.supports c (b.moveTo (w.landing c)) = false then
          (.error (.midAirRelease c), w)
        else (.ok b.id, { w with held := none }.laid (b.moveTo (w.landing c))) := by
  have hplaced : b.moveTo (if decide (c.z ≤ w.floorLevel) = true then
      { c with z := w.floorLevel } else c) = b.moveTo (w.landing c) := by
    simp only [landing, decide_eq_true_eq]
  simp only [release, hheld, hplaced]
  cases hfind : (b.moveTo (w.landing c)).cells.find? w.isOccupied with
  | some cell => rfl
  | none =>
    have hfree := (find?_isOccupied_eq_none_iff w _).mp hfind
    -- opening the gripper occupies no cell, so that the second look at the cells finds them free
    have hlay : ({ w with held := none } : World).lay (b.moveTo (w.landing c)) =
        .ok ({ w with held := none }.laid (b.moveTo (w.landing c))) :=
      lay_eq_ok_iff.mpr ⟨hfree, rfl⟩
    simp only [hlay, Bool.and_eq_true, Bool.not_eq_true', decide_eq_false_iff_not, Int32.not_le]
    rfl

/-- On free cells a block is put down on the floor or where it is supported. -/
theorem release_of_supported {w : World} {b : Block} (hheld : w.held = some b) {c : Cell}
    (hfree : ∀ cell ∈ (b.moveTo (w.landing c)).cells, w.occupied[cell]? = none)
    (hsupported : c.z ≤ w.floorLevel ∨ w.supports c (b.moveTo (w.landing c)) = true) :
    w.release c = (.ok b.id, { w with held := none }.laid (b.moveTo (w.landing c))) := by
  rw [release_of_held hheld, (find?_isOccupied_eq_none_iff w _).mpr hfree]
  refine if_neg fun ⟨hhigh, hunsupported⟩ => ?_
  rcases hsupported with hlow | hsupports
  · exact absurd hhigh (Int32.not_lt.mpr hlow)
  · rw [hsupports] at hunsupported
    simp at hunsupported

/-- Releasing either fails and changes nothing, or the held block comes to lie on free cells. -/
theorem release_cases (w : World) (c : Cell) :
    (∃ fault, w.release c = (.error fault, w)) ∨
    ∃ b, w.held = some b ∧ (∀ cell ∈ (b.moveTo (w.landing c)).cells, w.occupied[cell]? = none) ∧
      w.release c = (.ok b.id, { w with held := none }.laid (b.moveTo (w.landing c))) := by
  cases hheld : w.held with
  | none => exact Or.inl ⟨.notHolding, by simp only [release, hheld]⟩
  | some b =>
    rw [release_of_held hheld]
    cases hfind : (b.moveTo (w.landing c)).cells.find? w.isOccupied with
    | some cell => exact Or.inl ⟨_, rfl⟩
    | none =>
      dsimp only
      split
      · exact Or.inl ⟨_, rfl⟩
      · exact Or.inr ⟨b, rfl, (find?_isOccupied_eq_none_iff w _).mp hfind, rfl⟩

/-- Turning either fails and changes nothing, or turns the held block. -/
theorem turnHeld_cases (w : World) (degrees : Int32) :
    (∃ fault, w.turnHeld degrees = (.error fault, w)) ∨
    ∃ b, w.held = some b ∧ w.turnHeld degrees =
      (.ok (b.turnBy degrees).rotation, { w with held := some (b.turnBy degrees) }) := by
  cases hheld : w.held with
  | none => exact Or.inl ⟨.notHolding, by simp only [turnHeld, hheld]⟩
  | some b => exact Or.inr ⟨b, rfl, by simp only [turnHeld, hheld]⟩

end World

end BlockArm
