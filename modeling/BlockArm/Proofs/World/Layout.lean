/-
# Which challenges can be laid out

The start blocks are laid down one by one, each on cells that are still free, and the goal is made
of blocks in the same way, which are not laid down.  What comes out does not depend on the order in
which things are looked at: a challenge can be laid out exactly when its placements are not too
many, name block types that fit, and put no two start blocks on one cell.

* `Challenge.blocksFrom_eq_ok_iff`: placements become blocks one by one;
* `World.layFrom_eq_ok_iff`, `World.ofChallenge_eq_ok_iff`: when blocks can be laid out, and what
  lies in the world then;
* `Challenge.Feasible`: the condition on the placements alone;
* `World.laidOut_iff`: laying a challenge out, checking it, and this condition.
-/
import BlockArm.Proofs.Block.Footprint
import BlockArm.Proofs.World.Occupancy
import BlockArm.World.Layout
import Mathlib.Tactic.Tauto

namespace BlockArm

/-! ## Blocks of placements -/

/-- Both sides are at least one cell and at most sixteen cells long. -/
def Sides.Fits (s : Sides) : Prop :=
  (1 ≤ s.width.toInt ∧ s.width.toInt ≤ 16) ∧ (1 ≤ s.depth.toInt ∧ s.depth.toInt ≤ 16)

/-- The block that a placement asks for, under a number: of its type, which has these sides, at its
position, and with its rotation reduced by the symmetry of the type. -/
def Placement.put (p : Placement) (s : Sides) (id : Nat) : Block :=
  .place id ⟨p.blockType, s.width, s.depth⟩ p.position p.rotation

@[simp] theorem Placement.id_put (p : Placement) (s : Sides) (id : Nat) : (p.put s id).id = id := rfl

namespace Challenge

variable {c : Challenge}

theorem sideFits_iff (side : Int32) : sideFits side = true ↔ 1 ≤ side.toInt ∧ side.toInt ≤ 16 := by
  have hone : (1 : Int32).toInt = 1 := rfl
  have hlongest : longestSide.toInt = 16 := rfl
  simp only [sideFits, Bool.and_eq_true, decide_eq_true_eq, Int32.le_iff_toInt_le, hone, hlongest]

/-- A block type is found exactly when it is listed with sides that fit. -/
theorem blockType_eq_ok_iff {name : String} {t : BlockType} : c.blockType name = .ok t ↔
    ∃ s, c.blockTypes[name]? = some s ∧ s.Fits ∧ t = ⟨name, s.width, s.depth⟩ := by
  unfold blockType
  split
  · next h => simp [h]
  · next s h =>
    have hfits : (sideFits s.width && sideFits s.depth) = true ↔ s.Fits := by
      rw [Bool.and_eq_true, sideFits_iff, sideFits_iff, Sides.Fits]
    by_cases hs : s.Fits
    · rw [if_pos (hfits.mpr hs), Except.ok.injEq]
      simp [h, hs, eq_comm]
    · rw [if_neg (mt hfits.mp hs)]
      simp [h, hs]

/-- The sides of a type that a challenge finds are of a fitting length. -/
theorem sized_of_blockType {name : String} {t : BlockType} (h : c.blockType name = .ok t) :
    t.Sized := by
  obtain ⟨s, -, hfits, rfl⟩ := blockType_eq_ok_iff.mp h
  exact ⟨hfits.1, hfits.2⟩

/-- A placement becomes a block exactly when its type is listed with sides that fit and there is a
number left. -/
theorem block_eq_ok_iff {id : Nat} {p : Placement} {b : Block} : c.block id p = .ok b ↔
    ∃ s, c.blockTypes[p.blockType]? = some s ∧ s.Fits ∧ id < maxBlocks ∧ b = p.put s id := by
  unfold block
  split
  · next fault h =>
    simp only [reduceCtorEq, false_iff, not_exists, not_and]
    intro s hs hfits
    rw [blockType_eq_ok_iff.mpr ⟨s, hs, hfits, rfl⟩] at h
    simp at h
  · next t h =>
    obtain ⟨s, hs, hfits, rfl⟩ := blockType_eq_ok_iff.mp h
    by_cases hid : id < maxBlocks
    · rw [if_pos hid, Except.ok.injEq]
      simp [hs, hfits, hid, Placement.put, eq_comm]
    · rw [if_neg hid]
      simp [hid]

/-- Placements become blocks one by one. -/
theorem blocksFrom_eq_ok_iff {placements : List Placement} {id : Nat} {bs : List Block} :
    c.blocksFrom id placements = .ok bs ↔
      placements.mapIdx (fun j p => c.block (id + j) p) = bs.map .ok := by
  induction placements generalizing id bs with
  | nil => simp [blocksFrom, eq_comm]
  | cons p placements ih =>
    have hmore : ∀ j q, c.block (id + (j + 1)) q = c.block (id + 1 + j) q := fun j q => by
      rw [Nat.add_comm j 1, Nat.add_assoc]
    rw [blocksFrom, List.mapIdx_cons, Nat.add_zero]
    simp only [hmore]
    cases hblock : c.block id p with
    | error fault => cases bs <;> simp
    | ok b =>
      cases hrest : c.blocksFrom (id + 1) placements with
      | error fault =>
        cases bs with
        | nil => simp
        | cons b' bs =>
          have hnone : c.blocksFrom (id + 1) placements ≠ .ok bs := by simp [hrest]
          simp [mt ih.mpr hnone]
      | ok rest =>
        have hih := ih.mp hrest
        cases bs with
        | nil => simp
        | cons b' bs =>
          rw [hih]
          simp [List.map_inj_right]

/-- The blocks of placements that all have become blocks. -/
theorem blocksFrom_getElem? {placements : List Placement} {id : Nat} {bs : List Block}
    (h : c.blocksFrom id placements = .ok bs) (j : Nat) :
    bs[j]? = (placements[j]?).bind fun p =>
      (c.blockTypes[p.blockType]?).map fun s => p.put s (id + j) := by
  have hj := congrArg (·[j]?) (blocksFrom_eq_ok_iff.mp h)
  simp only [List.getElem?_mapIdx, List.getElem?_map] at hj
  cases hp : placements[j]? with
  | none =>
    rw [hp, Option.map_none, eq_comm, Option.map_eq_none_iff] at hj
    exact hj
  | some p =>
    rw [hp, Option.map_some, eq_comm, Option.map_eq_some_iff] at hj
    obtain ⟨b, hb, hblock⟩ := hj
    obtain ⟨s, hs, -, -, rfl⟩ := block_eq_ok_iff.mp hblock.symm
    rw [hb, Option.bind_some, hs, Option.map_some]

/-- Placements become blocks exactly when the types of all of them are listed with sides that fit
and there are numbers enough. -/
theorem exists_blocksFrom_iff {placements : List Placement} :
    (∃ bs, c.blocksFrom 0 placements = .ok bs) ↔ placements.length ≤ maxBlocks ∧
      ∀ p ∈ placements, ∃ s, c.blockTypes[p.blockType]? = some s ∧ s.Fits := by
  simp only [blocksFrom_eq_ok_iff, Nat.zero_add]
  constructor
  · rintro ⟨bs, h⟩
    have hfound : ∀ j (hj : j < placements.length), ∃ s,
        c.blockTypes[placements[j].blockType]? = some s ∧ s.Fits ∧ j < maxBlocks := by
      intro j hj
      have hblock := congrArg (·[j]?) h
      simp only [List.getElem?_mapIdx, List.getElem?_map, List.getElem?_eq_getElem hj,
        Option.map_some] at hblock
      obtain ⟨b, -, hok⟩ := Option.map_eq_some_iff.mp hblock.symm
      obtain ⟨s, hs, hfits, hlt, -⟩ := block_eq_ok_iff.mp hok.symm
      exact ⟨s, hs, hfits, hlt⟩
    refine ⟨?_, fun p hp => ?_⟩
    · by_contra hmany
      obtain ⟨-, -, -, hlt⟩ := hfound maxBlocks (by omega)
      exact Nat.lt_irrefl _ hlt
    · obtain ⟨j, hj, rfl⟩ := List.getElem_of_mem hp
      obtain ⟨s, hs, hfits, -⟩ := hfound j hj
      exact ⟨s, hs, hfits⟩
  · rintro ⟨hfew, hlisted⟩
    choose s hs hfits using hlisted
    refine ⟨List.ofFn fun j : Fin placements.length =>
      placements[j].put (s _ (List.getElem_mem j.isLt)) j, List.ext_getElem (by simp) fun j h₁ h₂ => ?_⟩
    have hj : j < placements.length := by simpa using h₁
    rw [List.getElem_mapIdx, List.getElem_map, List.getElem_ofFn]
    exact block_eq_ok_iff.mpr ⟨_, hs _ (List.getElem_mem hj), hfits _ _, by omega, rfl⟩

end Challenge

namespace World

/-! ## Blocks laid out -/

/-- No two of the blocks cover one cell. -/
def Apart (bs : List Block) : Prop := bs.Pairwise fun b b' => b.cells.Disjoint b'.cells

/-- The world in which more blocks lie, whether there is room for them or not. -/
def laidAll (w : World) (bs : List Block) : World := bs.foldl laid w

theorem laidAll_cons (w : World) (b : Block) (bs : List Block) :
    w.laidAll (b :: bs) = (w.laid b).laidAll bs := rfl

/-- Laying blocks out changes nothing but the two maps. -/
theorem laidAll_frame (w : World) (bs : List Block) :
    (w.laidAll bs).name = w.name ∧ (w.laidAll bs).floorLevel = w.floorLevel ∧
      (w.laidAll bs).held = w.held ∧ (w.laidAll bs).goal = w.goal := by
  induction bs generalizing w with
  | nil => exact ⟨rfl, rfl, rfl, rfl⟩
  | cons b bs ih => exact ih (w.laid b)

/-- Blocks that are numbered in order are found under their numbers. -/
theorem lying_laidAll {bs : List Block} {w : World} {n : Nat}
    (hnumbers : ∀ j b, bs[j]? = some b → b.id = n + j) (id : Nat) :
    (w.laidAll bs).lying[id]? = if n ≤ id ∧ id < n + bs.length then bs[id - n]?
      else w.lying[id]? := by
  induction bs generalizing w n with
  | nil =>
    rw [if_neg (by simp)]
    rfl
  | cons b bs ih =>
    have hb : b.id = n := hnumbers 0 b rfl
    have hmore : ∀ j b', bs[j]? = some b' → b'.id = n + 1 + j := fun j b' hb' => by
      rw [hnumbers (j + 1) b' hb', Nat.add_assoc, Nat.add_comm 1]
    rw [laidAll_cons, ih hmore, lying_laid, hb, List.length_cons]
    rcases Nat.lt_trichotomy id n with hlt | rfl | hgt
    · rw [if_neg (by omega), if_neg (by omega), if_neg (by omega)]
    · rw [if_neg (by omega), if_pos rfl, if_pos (by omega), Nat.sub_self]
      rfl
    · rw [show id - n = id - (n + 1) + 1 by omega, List.getElem?_cons_succ,
        if_neg (Nat.ne_of_lt hgt)]
      by_cases hid : id < n + 1 + bs.length
      · rw [if_pos (by omega), if_pos (by omega)]
      · rw [if_neg (by omega), if_neg (by omega)]

/-- Placements can be laid out exactly when they become blocks that meet neither what lies there nor
each other. -/
theorem layFrom_eq_ok_iff {c : Challenge} {placements : List Placement} {id : Nat}
    {w after : World} : layFrom c id w placements = .ok after ↔
      ∃ bs, c.blocksFrom id placements = .ok bs ∧ Apart bs ∧
        (∀ b ∈ bs, ∀ cell ∈ b.cells, w.occupied[cell]? = none) ∧ after = w.laidAll bs := by
  induction placements generalizing id w with
  | nil =>
    rw [layFrom, Except.ok.injEq]
    simp [Challenge.blocksFrom, Apart, laidAll, eq_comm]
  | cons p placements ih =>
    rw [layFrom, Challenge.blocksFrom]
    cases hblock : c.block id p with
    | error fault => simp
    | ok b =>
      dsimp only
      cases hlay : w.lay b with
      | error fault =>
        simp only [reduceCtorEq, false_iff, not_exists, not_and]
        intro bs hbs _ hfree
        cases hrest : c.blocksFrom (id + 1) placements with
        | error fault => simp [hrest] at hbs
        | ok rest =>
          rw [hrest] at hbs
          obtain rfl := Except.ok.inj hbs
          have hb := lay_eq_ok_iff.mpr ⟨hfree b List.mem_cons_self, rfl⟩
          rw [hlay] at hb
          simp at hb
      | ok w' =>
        obtain ⟨hfree, rfl⟩ := lay_eq_ok_iff.mp hlay
        simp only [ih]
        -- the cells that are free later on are those that are free now and not the block's
        have hlater : ∀ bs : List Block,
            (∀ b' ∈ bs, ∀ cell ∈ b'.cells, (w.laid b).occupied[cell]? = none) ↔
              (∀ b' ∈ bs, b.cells.Disjoint b'.cells) ∧
                ∀ b' ∈ bs, ∀ cell ∈ b'.cells, w.occupied[cell]? = none := by
          intro bs
          simp only [occupied_laid]
          constructor
          · intro h
            refine ⟨fun b' hb' cell hcell hcell' => ?_, fun b' hb' cell hcell => ?_⟩
            · simpa [hcell] using h b' hb' cell hcell'
            · have hnone := h b' hb' cell hcell
              split at hnone
              · simp at hnone
              · exact hnone
          · rintro ⟨hapart, hnone⟩ b' hb' cell hcell
            rw [if_neg fun hb => hapart b' hb' hb hcell]
            exact hnone b' hb' cell hcell
        cases hrest : c.blocksFrom (id + 1) placements with
        | error fault => simp
        | ok rest =>
          simp only [Except.ok.injEq, exists_eq_left', hlater, Apart, List.pairwise_cons,
            List.forall_mem_cons, laidAll_cons]
          tauto

/-- A challenge can be laid out exactly when its placements become blocks and those of the start
layout keep apart. -/
theorem ofChallenge_eq_ok_iff {c : Challenge} {w : World} : ofChallenge c = .ok w ↔
    ∃ start goal, c.blocksFrom 0 c.start = .ok start ∧ c.blocksFrom 0 c.goal = .ok goal ∧
      Apart start ∧ w = { (empty c).laidAll start with goal } := by
  have hempty : ∀ bs : List Block,
      ∀ b ∈ bs, ∀ cell ∈ b.cells, (empty c).occupied[cell]? = none := by simp [empty]
  unfold ofChallenge
  cases hlay : layFrom c 0 (empty c) c.start with
  | error fault =>
    simp only [reduceCtorEq, false_iff, not_exists, not_and]
    intro start goal hstart _ hapart
    rw [layFrom_eq_ok_iff.mpr ⟨start, hstart, hapart, hempty start, rfl⟩] at hlay
    simp at hlay
  | ok laidOut =>
    obtain ⟨start, hstart, hapart, -, rfl⟩ := layFrom_eq_ok_iff.mp hlay
    cases hgoal : c.blocksFrom 0 c.goal with
    | error fault => simp
    | ok goal => simp [hstart, hapart, eq_comm]

end World

/-! ## Challenges that can be laid out -/

namespace Challenge

variable {c : Challenge}

/-- What the placements must be like for a challenge to be laid out. -/
structure Feasible (c : Challenge) : Prop where
  start_le : c.start.length ≤ 65536
  goal_le : c.goal.length ≤ 65536
  /-- Every placement names a block type that is listed with sides that fit. -/
  listed : ∀ p, p ∈ c.start ∨ p ∈ c.goal → ∃ s, c.blockTypes[p.blockType]? = some s ∧ s.Fits
  /-- No cell belongs to two blocks of the start layout. -/
  apart : ∀ (i j : Nat) (p q : Placement) (s t : Sides), i ≠ j →
    c.start[i]? = some p → c.start[j]? = some q →
    c.blockTypes[p.blockType]? = some s → c.blockTypes[q.blockType]? = some t →
    (p.put s i).cells.Disjoint (q.put t j).cells

/-- Blocks that placements have become keep apart exactly when the placements put them apart. -/
theorem apart_iff {start : List Block} (h : c.blocksFrom 0 c.start = .ok start) :
    World.Apart start ↔ ∀ (i j : Nat) (p q : Placement) (s t : Sides), i ≠ j →
      c.start[i]? = some p → c.start[j]? = some q →
      c.blockTypes[p.blockType]? = some s → c.blockTypes[q.blockType]? = some t →
      (p.put s i).cells.Disjoint (q.put t j).cells := by
  have hblock : ∀ (i : Nat) (p : Placement) (s : Sides), c.start[i]? = some p →
      c.blockTypes[p.blockType]? = some s → start[i]? = some (p.put s i) := by
    intro i p s hp hs
    rw [blocksFrom_getElem? h, hp, Option.bind_some, hs, Option.map_some, Nat.zero_add]
  rw [World.Apart, List.pairwise_iff_getElem]
  constructor
  · intro hapart i j p q s t hne hp hq hs ht
    obtain ⟨hi, hput⟩ := List.getElem?_eq_some_iff.mp (hblock i p s hp hs)
    obtain ⟨hj, hput'⟩ := List.getElem?_eq_some_iff.mp (hblock j q t hq ht)
    rw [← hput, ← hput']
    rcases Nat.lt_or_gt_of_ne hne with hlt | hgt
    · exact hapart i j hi hj hlt
    · exact fun cell hcell hcell' => hapart j i hj hi hgt hcell' hcell
  · intro hput i j hi hj hlt
    -- each of the blocks is that of the placement of its number
    have hfound : ∀ (k : Nat) (hk : k < start.length), ∃ p s, c.start[k]? = some p ∧
        c.blockTypes[p.blockType]? = some s ∧ start[k] = p.put s k := by
      intro k hk
      have hstart := blocksFrom_getElem? h k
      rw [List.getElem?_eq_getElem hk, eq_comm, Option.bind_eq_some_iff] at hstart
      obtain ⟨p, hp, hmap⟩ := hstart
      obtain ⟨s, hs, heq⟩ := Option.map_eq_some_iff.mp hmap
      exact ⟨p, s, hp, hs, by rw [← heq, Nat.zero_add]⟩
    obtain ⟨p, s, hp, hs, hi'⟩ := hfound i hi
    obtain ⟨q, t, hq, ht, hj'⟩ := hfound j hj
    rw [hi', hj']
    exact hput i j p q s t (Nat.ne_of_lt hlt) hp hq hs ht

/-- Types are not refused exactly when all of them are found. -/
theorem checkTypes_eq_ok_iff {names : List String} :
    c.checkTypes names = .ok () ↔
      ∀ name ∈ names, ∃ s, c.blockTypes[name]? = some s ∧ s.Fits := by
  induction names with
  | nil => simp [checkTypes]
  | cons name names ih =>
    rw [checkTypes, List.forall_mem_cons]
    cases hname : c.blockType name with
    | error fault =>
      simp only [reduceCtorEq, false_iff, not_and]
      rintro ⟨s, hs, hfits⟩
      rw [blockType_eq_ok_iff.mpr ⟨s, hs, hfits, rfl⟩] at hname
      simp at hname
    | ok t =>
      obtain ⟨s, hs, hfits, -⟩ := blockType_eq_ok_iff.mp hname
      simp only [ih, iff_and_self]
      exact fun _ => ⟨s, hs, hfits⟩

/-- A challenge is checked by laying it out and looking at its block types. -/
theorem check_eq_ok_iff : c.check = .ok () ↔
    (∀ name ∈ c.blockTypes.keys, ∃ s, c.blockTypes[name]? = some s ∧ s.Fits) ∧
      (∀ name ∈ c.goal.map Placement.blockType, ∃ s, c.blockTypes[name]? = some s ∧ s.Fits) ∧
      ∃ w, World.ofChallenge c = .ok w := by
  rw [← checkTypes_eq_ok_iff, ← checkTypes_eq_ok_iff, check]
  cases c.checkTypes c.blockTypes.keys with
  | error fault => simp
  | ok _ =>
    cases c.checkTypes (c.goal.map Placement.blockType) with
    | error fault => simp
    | ok _ => cases World.ofChallenge c <;> simp

end Challenge

namespace World

/-- A challenge can be laid out exactly when its placements are such. -/
theorem exists_ofChallenge_iff {c : Challenge} :
    (∃ w, ofChallenge c = .ok w) ↔ c.Feasible := by
  constructor
  · rintro ⟨w, h⟩
    obtain ⟨start, goal, hstart, hgoal, hapart, -⟩ := ofChallenge_eq_ok_iff.mp h
    obtain ⟨hfew, hlisted⟩ := Challenge.exists_blocksFrom_iff.mp ⟨start, hstart⟩
    obtain ⟨hfew', hlisted'⟩ := Challenge.exists_blocksFrom_iff.mp ⟨goal, hgoal⟩
    exact ⟨hfew, hfew', fun p hp => hp.elim (hlisted p) (hlisted' p),
      (Challenge.apart_iff hstart).mp hapart⟩
  · intro h
    obtain ⟨start, hstart⟩ := Challenge.exists_blocksFrom_iff.mpr
      ⟨h.start_le, fun p hp => h.listed p (.inl hp)⟩
    obtain ⟨goal, hgoal⟩ := Challenge.exists_blocksFrom_iff.mpr
      ⟨h.goal_le, fun p hp => h.listed p (.inr hp)⟩
    exact ⟨_, ofChallenge_eq_ok_iff.mpr
      ⟨start, goal, hstart, hgoal, (Challenge.apart_iff hstart).mpr h.apart, rfl⟩⟩

/-- In the world of a challenge the blocks of the start layout lie under their numbers. -/
theorem lying_ofChallenge {c : Challenge} {w : World} (h : ofChallenge c = .ok w) :
    ∃ bs, c.blocksFrom 0 c.start = .ok bs ∧ ∀ n : Nat, w.lying[n]? = bs[n]? := by
  obtain ⟨start, goal, hstart, -, -, rfl⟩ := ofChallenge_eq_ok_iff.mp h
  have hnumbers : ∀ (j : Nat) (b : Block), start[j]? = some b → b.id = 0 + j := by
    intro j b hb
    rw [Challenge.blocksFrom_getElem? hstart, Option.bind_eq_some_iff] at hb
    obtain ⟨p, -, hmap⟩ := hb
    obtain ⟨s, -, rfl⟩ := Option.map_eq_some_iff.mp hmap
    exact p.id_put s (0 + j)
  refine ⟨start, hstart, fun n => ?_⟩
  show ((empty c).laidAll start).lying[n]? = _
  rw [lying_laidAll hnumbers]
  split
  · rfl
  · rw [List.getElem?_eq_none (by omega)]
    simp [empty]

/-- **Laying out.**  A challenge can be laid out exactly when it has at most 65536 start blocks and
as many goal blocks, every placement names a block type that is listed and whose sides fit, and no
two start blocks share a cell.  Then the gripper is empty, and exactly the blocks of the start
layout lie in the world, each under its number.  The check of a challenge accepts those that can be
laid out and whose block types all fit, whether a placement uses them or not. -/
theorem laidOut_iff (c : Challenge) :
    ((∃ w, ofChallenge c = .ok w) ↔ c.Feasible) ∧
    (∀ w, ofChallenge c = .ok w → w.held = none ∧
      ∀ (id : Nat) (b : Block), w.lying[id]? = some b ↔
        ∃ p s, c.start[id]? = some p ∧ c.blockTypes[p.blockType]? = some s ∧ b = p.put s id) ∧
    (c.check = .ok () ↔ (∃ w, ofChallenge c = .ok w) ∧
      ∀ (name : String) (s : Sides), c.blockTypes[name]? = some s → s.Fits) := by
  refine ⟨exists_ofChallenge_iff, fun w h => ⟨?_, fun id b => ?_⟩, ?_⟩
  · obtain ⟨start, goal, -, -, -, rfl⟩ := ofChallenge_eq_ok_iff.mp h
    exact (laidAll_frame (empty c) start).2.2.1
  · obtain ⟨start, hstart, hlying⟩ := lying_ofChallenge h
    simp only [hlying, Challenge.blocksFrom_getElem? hstart, Option.bind_eq_some_iff,
      Option.map_eq_some_iff, Nat.zero_add]
    grind
  · rw [Challenge.check_eq_ok_iff, exists_ofChallenge_iff]
    constructor
    · rintro ⟨hall, -, h⟩
      refine ⟨h, fun name s hs => ?_⟩
      obtain ⟨s', hs', hfits⟩ := hall name
        (Std.ExtTreeMap.mem_keys.mpr (Std.ExtTreeMap.mem_iff_isSome_getElem?.mpr (by simp [hs])))
      rw [hs] at hs'
      exact Option.some.inj hs' ▸ hfits
    · rintro ⟨h, hall⟩
      refine ⟨fun name hname => ?_, fun name hname => ?_, h⟩
      · have hsome := Std.ExtTreeMap.mem_iff_isSome_getElem?.mp (Std.ExtTreeMap.mem_keys.mp hname)
        obtain ⟨s, hs⟩ := Option.isSome_iff_exists.mp hsome
        exact ⟨s, hs, hall name s hs⟩
      · obtain ⟨p, hp, rfl⟩ := List.mem_map.mp hname
        exact h.listed p (.inr hp)

/-- Two planks, one across the other, and a slab that is too long but not used. -/
def unusedSlab : Challenge where
  name := "planks"
  blockTypes := ((∅ : SidesByName).insert "plank" ⟨3, 1⟩).insert "slab" ⟨17, 1⟩
  start := [⟨⟨3, 4, 1⟩, 0, "plank"⟩, ⟨⟨3, 4, 2⟩, 450, "plank"⟩]
  goal := [⟨⟨3, 4, 1⟩, 0, "plank"⟩]

/-- The sides of a plank. -/
theorem sides_unusedSlab : unusedSlab.blockTypes["plank"]? = some ⟨3, 1⟩ := by
  rw [unusedSlab, Std.ExtTreeMap.getElem?_insert, if_neg (by decide),
    Std.ExtTreeMap.getElem?_insert_self]

theorem feasible_unusedSlab : unusedSlab.Feasible where
  start_le := by decide
  goal_le := by decide
  listed p hp := by
    have hplank : ∀ q ∈ unusedSlab.start ++ unusedSlab.goal, q.blockType = "plank" := by
      decide +kernel
    rw [hplank p (List.mem_append.mpr hp)]
    exact ⟨⟨3, 1⟩, sides_unusedSlab, by decide, by decide⟩
  apart i j p q s t hne hp hq hs ht := by
    have hi := (List.getElem?_eq_some_iff.mp hp).1
    have hj := (List.getElem?_eq_some_iff.mp hq).1
    have hlength : unusedSlab.start.length = 2 := rfl
    have hcells : ∀ cell ∈ (Block.place 0 ⟨"plank", 3, 1⟩ ⟨3, 4, 1⟩ 0).cells,
        cell ∉ (Block.place 1 ⟨"plank", 3, 1⟩ ⟨3, 4, 2⟩ 450).cells := by decide +kernel
    obtain ⟨rfl, rfl⟩ | ⟨rfl, rfl⟩ : i = 0 ∧ j = 1 ∨ i = 1 ∧ j = 0 := by omega
    · obtain rfl := Option.some.inj hp
      obtain rfl := Option.some.inj hq
      obtain rfl := Option.some.inj (sides_unusedSlab.symm.trans hs)
      obtain rfl := Option.some.inj (sides_unusedSlab.symm.trans ht)
      exact fun cell hcell hcell' => hcells cell hcell hcell'
    · obtain rfl := Option.some.inj hp
      obtain rfl := Option.some.inj hq
      obtain rfl := Option.some.inj (sides_unusedSlab.symm.trans hs)
      obtain rfl := Option.some.inj (sides_unusedSlab.symm.trans ht)
      exact fun cell hcell hcell' => hcells cell hcell' hcell

/-- The planks can be laid out, the one across with a quarter turn, but the slab is refused. -/
theorem laidOut_unusedSlab : ∃ w, ofChallenge unusedSlab = .ok w ∧ w.held = none ∧
    w.lying[1]? = some (.place 1 ⟨"plank", 3, 1⟩ ⟨3, 4, 2⟩ 90) ∧ unusedSlab.check ≠ .ok () := by
  obtain ⟨hfeasible, hlies, hcheck⟩ := laidOut_iff unusedSlab
  obtain ⟨w, hw⟩ := hfeasible.mpr feasible_unusedSlab
  obtain ⟨hheld, hlying⟩ := hlies w hw
  refine ⟨w, hw, hheld, (hlying 1 _).mpr ⟨_, _, rfl, sides_unusedSlab, by decide +kernel⟩, fun h => ?_⟩
  have hfits := (hcheck.mp h).2 "slab" ⟨17, 1⟩
    (by simp [unusedSlab])
  exact absurd hfits.1.2 (by decide)

end World

end BlockArm
