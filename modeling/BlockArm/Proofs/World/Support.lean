/-
# Where a held block can be put down

A block comes to lie where no other block is in its way and where something bears it: the floor, a
block below the cell that it is held by, or blocks below two different cells of its footprint.  The
gripper notes this by the maps of the world; here it is said of the blocks that lie there.

* `World.Covered`, `World.Rests`: cells under blocks, and what a block can rest on;
* `World.Consistent.supports_iff`: the rule of the gripper is that of the blocks.  It counts cells,
  so that it needs a footprint none of whose cells comes twice;
* `World.released`: what therefore comes of a release in every world that a challenge leads to.
-/
import BlockArm.Proofs.Block.Footprint
import BlockArm.Proofs.World.Play
import Mathlib.Data.Finset.Card

namespace BlockArm

namespace Cell

/-- A cell lies directly below another one. -/
structure Under (c d : Cell) : Prop where
  x_eq : c.x = d.x
  y_eq : c.y = d.y
  z_succ : c.z.toInt + 1 = d.z.toInt

/-- Above the lowest height the cell below is one step lower. -/
theorem toInt_below_z {c : Cell} (hc : -2147483648 < c.z.toInt) :
    c.below.z.toInt = c.z.toInt - 1 := by
  have hminus : (-1 : Int32).toInt = -1 := rfl
  have hhigh := c.z.toInt_lt
  show (addClamped c.z (-1)).toInt = _
  rw [toInt_addClamped, saturate, hminus]
  omega

/-- Above the lowest height there is exactly one cell directly below a cell. -/
theorem under_iff {c d : Cell} (hd : -2147483648 < d.z.toInt) : c.Under d ↔ c = d.below := by
  have hz := toInt_below_z hd
  constructor
  · rintro ⟨hx, hy, hsucc⟩
    have heq : c.z = d.below.z := Int32.toInt_inj.mp (by omega)
    rw [below, ← hx, ← hy]
    exact congrArg (Cell.mk c.x c.y) heq
  · rintro rfl
    exact ⟨rfl, rfl, by omega⟩

end Cell

namespace World

variable {w : World} {p : Cell} {b : Block}

/-! ## What a block rests on -/

/-- A block that lies in the world covers the cell. -/
def Covered (w : World) (cell : Cell) : Prop :=
  ∃ (id : Nat) (b : Block), w.lying[id]? = some b ∧ cell ∈ b.cells

/-- A cell is covered and directly below the footprint of a block. -/
def Bears (w : World) (b : Block) (cell : Cell) : Prop :=
  w.Covered cell ∧ ∃ d ∈ b.cells, cell.Under d

/-- A block rests where it is put down at a cell: on the floor, on what is below the cell, or on two
of the cells below its footprint. -/
inductive Rests (w : World) (p : Cell) (b : Block) : Prop
  | floor (hlow : p.z.toInt ≤ w.floorLevel.toInt)
  | single (cell : Cell) (hunder : cell.Under p) (hcovered : w.Covered cell)
  | bridge (cell cell' : Cell) (hne : cell ≠ cell') (hcell : w.Bears b cell)
      (hcell' : w.Bears b cell')

theorem Consistent.isOccupied_iff (h : w.Consistent) (cell : Cell) :
    w.isOccupied cell = true ↔ w.Covered cell := by
  rw [isOccupied, Std.ExtHashMap.contains_eq_isSome_getElem?, Option.isSome_iff_exists]
  exact exists_congr fun id => h.occupied_iff cell id

/-- No cell of a list is occupied when none is covered. -/
theorem Consistent.find?_isOccupied_eq_none_iff (h : w.Consistent) (cells : List Cell) :
    cells.find? w.isOccupied = none ↔ ∀ cell ∈ cells, ¬ w.Covered cell := by
  simp [List.find?_eq_none, h.isOccupied_iff]

/-- Two members of a list without repetition are counted exactly when there are two different ones. -/
theorem two_le_countP_iff {cells : List Cell} (hnodup : cells.Nodup) (counted : Cell → Bool) :
    2 ≤ cells.countP counted ↔
      ∃ d ∈ cells, ∃ d' ∈ cells, d ≠ d' ∧ counted d = true ∧ counted d' = true := by
  rw [List.countP_eq_length_filter, ← List.toFinset_card_of_nodup (hnodup.filter counted)]
  show 1 < _ ↔ _
  simp only [Finset.one_lt_card, List.mem_toFinset, List.mem_filter]
  constructor
  · rintro ⟨d, ⟨hd, hcounted⟩, d', ⟨hd', hcounted'⟩, hne⟩
    exact ⟨d, hd, d', hd', hne, hcounted, hcounted'⟩
  · rintro ⟨d, hd, d', hd', hne, hcounted, hcounted'⟩
    exact ⟨d, ⟨hd, hcounted⟩, d', ⟨hd', hcounted'⟩, hne⟩

/-- Above the floor the rule of the gripper finds support exactly where a block rests. -/
theorem Consistent.supports_iff (h : w.Consistent) (hshaped : b.Shaped) (hnodup : b.cells.Nodup)
    (hcenter : b.center = p) (hhigh : w.floorLevel < p.z) :
    w.supports p b = true ↔ w.Rests p b := by
  have hfloor := w.floorLevel.le_toInt
  have hp : w.floorLevel.toInt < p.z.toInt := Int32.lt_iff_toInt_lt.mp hhigh
  -- the block is higher than the lowest cells, so that each of its cells has one below
  have hbelow : ∀ {cell d : Cell}, d ∈ b.cells → (cell.Under d ↔ cell = d.below) := by
    intro cell d hd
    refine Cell.under_iff ?_
    rw [hshaped.z_of_mem_cells hd, hcenter]
    omega
  have hbelow' : ∀ {cell : Cell}, cell.Under p ↔ cell = p.below := Cell.under_iff (by omega)
  rw [supports, Bool.or_eq_true, decide_eq_true_iff, h.isOccupied_iff, two_le_countP_iff hnodup]
  simp only [h.isOccupied_iff]
  constructor
  · rintro (hsingle | ⟨d, hd, d', hd', hne, hcovered, hcovered'⟩)
    · exact .single p.below (hbelow'.mpr rfl) hsingle
    · have hunder := (hbelow hd).mpr rfl
      have hunder' := (hbelow hd').mpr rfl
      refine .bridge d.below d'.below (fun heq => hne ?_) ⟨hcovered, d, hd, hunder⟩
        ⟨hcovered', d', hd', hunder'⟩
      -- all cells of the block are equally high
      have hz : d.z = d'.z := (hshaped.z_of_mem_cells hd).trans (hshaped.z_of_mem_cells hd').symm
      obtain ⟨x, y, z⟩ := d
      obtain ⟨x', y', z'⟩ := d'
      obtain rfl : z = z' := hz
      simp only [Cell.below, Cell.mk.injEq] at heq
      rw [heq.1, heq.2.1]
  · rintro (hlow | ⟨cell, hunder, hcovered⟩ |
      ⟨cell, cell', hne, ⟨hcovered, d, hd, hunder⟩, ⟨hcovered', d', hd', hunder'⟩⟩)
    · omega
    · exact .inl (hbelow'.mp hunder ▸ hcovered)
    · obtain rfl := (hbelow hd).mp hunder
      obtain rfl := (hbelow hd').mp hunder'
      exact .inr ⟨d, hd, d', hd', fun heq => hne (heq ▸ rfl), hcovered, hcovered'⟩

/-! ## Blocks of a challenge -/

/-- The types of a start layout have sides of a fitting length. -/
theorem sized_of_start {c : Challenge} {types : List BlockType}
    (htypes : c.start.map (fun p => c.blockType p.blockType) = types.map .ok) :
    ∀ t ∈ types, t.Sized := by
  intro t ht
  have hmem : Except.ok t ∈ c.start.map fun p => c.blockType p.blockType :=
    htypes ▸ List.mem_map_of_mem ht
  obtain ⟨q, -, hq⟩ := List.mem_map.mp hmem
  exact Challenge.sized_of_blockType hq

/-- The type of an owned block is one of the stock. -/
theorem Stocked.mem_types {types : List BlockType} (h : Stocked types w) {id : Nat}
    (hb : w.owned? id = some b) : b.blockType ∈ types := by
  have htype := h.owned id
  rw [hb, Option.map_some] at htype
  exact List.mem_of_getElem? htype.symm

/-! ## What comes of a release -/

/-- What comes of releasing the held block at a cell, and where it would come to lie. -/
structure Lands (w : World) (p : Cell) (placed : Block) : Prop where
  /-- The release is refused for a cell exactly when something is in the way of the block. -/
  cellOccupied_iff : (∃ cell, (w.release p).1 = .error (.cellOccupied cell)) ↔
    ∃ cell ∈ placed.cells, w.Covered cell
  /-- The cell that it is refused for is one of those. -/
  in_the_way : ∀ cell, (w.release p).1 = .error (.cellOccupied cell) →
    cell ∈ placed.cells ∧ w.Covered cell
  /-- With nothing in its way the block comes to lie exactly where it rests on something. -/
  ok_iff : (∀ cell ∈ placed.cells, ¬ w.Covered cell) →
    ((∃ id, (w.release p).1 = .ok id) ↔ w.Rests p placed)
  midAirRelease_iff : (∀ cell ∈ placed.cells, ¬ w.Covered cell) →
    ((w.release p).1 = .error (.midAirRelease p) ↔ ¬ w.Rests p placed)
  /-- The block can be laid down after the gripper was opened, and where it rests this is what comes
  of the release. -/
  lays : (∀ cell ∈ placed.cells, ¬ w.Covered cell) →
    ∃ after, ({ w with held := none } : World).lay placed = .ok after ∧
      (w.Rests p placed → w.release p = (.ok placed.id, after))

/-- What comes of a release at a cell. -/
structure Released (w : World) (p : Cell) : Prop where
  notHolding_iff : (w.release p).1 = .error .notHolding ↔ w.held = none
  lands : ∀ b, w.held = some b → w.Lands p (b.moveTo (w.landing p))
  /-- A refused release changes nothing. -/
  refused : ∀ fault, (w.release p).1 = .error fault → (w.release p).2 = w

/-- A release is refused for a covered cell that is in the way of the block, if there is one. -/
theorem Consistent.release_of_covered (h : w.Consistent) (hheld : w.held = some b)
    (hcovered : ∃ cell ∈ (b.moveTo (w.landing p)).cells, w.Covered cell) :
    ∃ cell ∈ (b.moveTo (w.landing p)).cells, w.Covered cell ∧
      w.release p = (.error (.cellOccupied cell), w) := by
  rw [release_of_held hheld]
  cases hfind : (b.moveTo (w.landing p)).cells.find? w.isOccupied with
  | none =>
    have hfree := (h.find?_isOccupied_eq_none_iff _).mp hfind
    exact absurd hcovered (by simpa using hfree)
  | some cell =>
    exact ⟨cell, List.mem_of_find?_eq_some hfind,
      (h.isOccupied_iff cell).mp (List.find?_some hfind), rfl⟩

/-- With nothing in its way, the held block is put down if it rests on something. -/
theorem Stocked.release_of_free {types : List BlockType} (h : Stocked types w)
    (hsized : ∀ t ∈ types, t.Sized) (hp : p.Inland) (hheld : w.held = some b)
    (hfree : ∀ cell ∈ (b.moveTo (w.landing p)).cells, ¬ w.Covered cell) :
    (w.Rests p (b.moveTo (w.landing p)) ∧
      w.release p = (.ok b.id, { w with held := none }.laid (b.moveTo (w.landing p)))) ∨
    (¬ w.Rests p (b.moveTo (w.landing p)) ∧ w.release p = (.error (.midAirRelease p), w)) := by
  have howned := owned?_of_held hheld
  rw [release_of_held hheld, (h.consistent.find?_isOccupied_eq_none_iff _).mpr hfree]
  dsimp only
  rcases Int32.le_or_lt p.z w.floorLevel with hlow | hhigh
  · refine .inl ⟨.floor (Int32.le_iff_toInt_le.mp hlow), if_neg fun hmid => ?_⟩
    exact absurd hmid.1 (Int32.not_lt.mpr hlow)
  · -- above the floor the block is put down where it is released
    rw [landing_of_floorLevel_le (Int32.le_of_lt hhigh)]
    have hshaped := (h.shaped b.id b howned).moveTo p
    have htype : (b.moveTo p).blockType.Sized := hsized b.blockType (h.mem_types howned)
    have hsupports : w.supports p (b.moveTo p) = true ↔ w.Rests p (b.moveTo p) :=
      h.consistent.supports_iff hshaped (hshaped.nodup_cells htype hp) rfl hhigh
    by_cases hrests : w.Rests p (b.moveTo p)
    · refine .inl ⟨hrests, if_neg fun hmid => ?_⟩
      rw [hsupports.mpr hrests] at hmid
      simp at hmid
    · exact .inr ⟨hrests, if_pos ⟨hhigh, by rwa [← Bool.not_eq_true, hsupports]⟩⟩

theorem Stocked.lands {types : List BlockType} (h : Stocked types w)
    (hsized : ∀ t ∈ types, t.Sized) (hp : p.Inland) (hheld : w.held = some b) :
    w.Lands p (b.moveTo (w.landing p)) := by
  by_cases hcovered : ∃ cell ∈ (b.moveTo (w.landing p)).cells, w.Covered cell
  · obtain ⟨cell, hcell, hcell', heq⟩ := h.consistent.release_of_covered hheld hcovered
    refine ⟨⟨fun _ => hcovered, fun _ => ⟨cell, by rw [heq]⟩⟩, fun other hother => ?_, ?_, ?_, ?_⟩
    · rw [heq] at hother
      obtain rfl : cell = other := by simpa using hother
      exact ⟨hcell, hcell'⟩
    all_goals exact fun hfree => absurd hcell' (hfree cell hcell)
  · push Not at hcovered
    have hlay : ({ w with held := none } : World).lay (b.moveTo (w.landing p)) =
        .ok ({ w with held := none }.laid (b.moveTo (w.landing p))) := by
      refine lay_eq_ok_iff.mpr ⟨fun cell hcell => ?_, rfl⟩
      exact (World.find?_isOccupied_eq_none_iff w _).mp
        ((h.consistent.find?_isOccupied_eq_none_iff _).mpr hcovered) cell hcell
    rcases h.release_of_free hsized hp hheld hcovered with ⟨hrests, heq⟩ | ⟨hrests, heq⟩
    · exact ⟨by simpa [heq] using hcovered, by simp [heq], by simp [heq, hrests],
        by simp [heq, hrests], fun _ => ⟨_, hlay, fun _ => heq⟩⟩
    · exact ⟨by simpa [heq] using hcovered, by simp [heq], by simp [heq, hrests],
        by simp [heq, hrests], fun _ => ⟨_, hlay, fun hrests' => absurd hrests' hrests⟩⟩

/-- **Putting down.**  Whatever a challenge is played with, a release without a block is refused.  A
held block comes to lie, at the floor level at the lowest, exactly where it covers no covered cell
and rests on something; otherwise nothing changes.  The cell may not be near the ends of the range,
where cells of a footprint coincide and would be counted twice. -/
theorem released {c : Challenge} (h : ofChallenge c = .ok w) (operations : List Operation)
    (hp : p.Inland) : Released (w.afterAll operations) p := by
  obtain ⟨types, htypes, hstock⟩ := ofChallenge_stocked h
  have hplayed := hstock.afterAll operations
  have hsized := sized_of_start htypes
  refine ⟨?_, fun b hheld => hplayed.lands hsized hp hheld, fun fault hfault => ?_⟩
  · cases hheld : (w.afterAll operations).held with
    | none => simp [release, hheld]
    | some b =>
      rw [release_of_held hheld]
      cases (b.moveTo ((w.afterAll operations).landing p)).cells.find?
          (w.afterAll operations).isOccupied with
      | some cell => simp
      | none =>
        dsimp only
        split <;> simp
  · rcases (w.afterAll operations).release_cases p with ⟨fault', heq⟩ | ⟨b, -, -, heq⟩
    · rw [heq]
    · rw [heq] at hfault
      simp at hfault

/-- The upper plank is picked up, laid along the lower one and released past its end, where only
one cell is below its footprint. -/
theorem released_crossedPlanks : ∃ w, ofChallenge crossedPlanks = .ok w ∧
    (⟨5, 4, 2⟩ : Cell).Inland ∧
    Released (w.afterAll [.grip ⟨3, 4, 2⟩, .turn 90]) ⟨5, 4, 2⟩ := by
  have hinland : (⟨5, 4, 2⟩ : Cell).Inland := by
    unfold Cell.Inland
    decide
  exact ⟨_, ofChallenge_crossedPlanks, hinland, released ofChallenge_crossedPlanks _ hinland⟩

end World

end BlockArm
