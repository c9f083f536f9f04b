/-
# Reaching the goal

Each goal block must be matched by a block of its own.  The search takes the first block that fits a
goal, never takes a choice back, and goes through the blocks in an order that the world does not
fix.  It misses nothing: two blocks fit a goal only if they are alike in everything that any goal
asks for (`Block.look`), so that it does not matter which of the two is used.

* `matched_iff_subperm`: the search succeeds exactly when the looks of the goals are found among the
  looks of the blocks, each as often as it is asked for;
* `search_eq_matched`: keeping the numbers of the used blocks comes to the same as removing these
  blocks;
* `judged_afterAll`: what therefore holds of every world that a challenge leads to.
-/
import BlockArm.Proofs.World.Play
import Mathlib.Data.List.Perm.Subperm
import Mathlib.Data.List.FinRange
import Mathlib.Data.List.NodupEquivFin

namespace BlockArm

/-! ## Looks -/

namespace Block

/-- What a goal asks for: a type, a place and a reduced rotation. -/
def look (b : Block) : BlockType × Cell × Int32 := (b.blockType, b.center, b.rotation)

/-- A block fits a goal of the same look. -/
theorem fits_iff_look_eq {b goal : Block} : b.fits goal = true ↔ b.look = goal.look := by
  simp [fits, look, and_assoc]

/-- Two blocks agree in type, place and reduced rotation. -/
structure Agrees (b goal : Block) : Prop where
  blockType_eq : b.blockType = goal.blockType
  center_eq : b.center = goal.center
  normalize_eq : b.blockType.normalize b.rotation = goal.blockType.normalize goal.rotation

/-- Blocks in shape look the same exactly when they agree. -/
theorem Shaped.look_eq_iff {b goal : Block} (hb : b.Shaped) (hgoal : goal.Shaped) :
    b.look = goal.look ↔ b.Agrees goal := by
  simp only [look, Prod.mk.injEq]
  constructor
  · rintro ⟨htype, hcenter, hrotation⟩
    exact ⟨htype, hcenter, by rw [htype, hrotation]⟩
  · rintro ⟨htype, hcenter, hnormalize⟩
    rw [hb.reduced, hgoal.reduced] at hnormalize
    exact ⟨htype, hcenter, hnormalize⟩

/-- Blocks in shape that look the same cover the same cells. -/
theorem Shaped.cells_eq_of_look_eq {b goal : Block} (hb : b.Shaped) (hgoal : goal.Shaped)
    (h : b.look = goal.look) : b.cells = goal.cells := by
  obtain ⟨htype, hcenter, hrotation⟩ : b.blockType = goal.blockType ∧ b.center = goal.center ∧
      b.rotation = goal.rotation := by simpa [look] using h
  rw [hb.cells_eq, hgoal.cells_eq, covered, covered, htype, hcenter, hrotation]

end Block

namespace World

open List (Subperm)

/-! ## The search as a question about lists -/

/-- A member and some more can be taken out of a list exactly when the others can be taken out of
what the member leaves. -/
theorem cons_subperm_iff {α : Type} [BEq α] [LawfulBEq α] {a : α} {l₁ l₂ : List α} :
    Subperm (a :: l₁) l₂ ↔ a ∈ l₂ ∧ Subperm l₁ (l₂.erase a) := by
  constructor
  · intro h
    have hmem : a ∈ l₂ := h.subset List.mem_cons_self
    exact ⟨hmem, (List.subperm_cons a).mp ((List.perm_cons_erase hmem).subperm_left.mp h)⟩
  · rintro ⟨hmem, h⟩
    exact (List.perm_cons_erase hmem).subperm_left.mpr ((List.subperm_cons a).mpr h)

/-- The search succeeds exactly when the looks of the goals are found among the looks of the
blocks, each as often as it is asked for. -/
theorem matched_iff_subperm (goals free : List Block) :
    matched goals free = true ↔ Subperm (goals.map Block.look) (free.map Block.look) := by
  induction goals generalizing free with
  | nil => simp [matched]
  | cons goal goals ih =>
    have hany : free.any (·.fits goal) = true ↔ goal.look ∈ free.map Block.look := by
      simp only [List.any_eq_true, List.mem_map, Block.fits_iff_look_eq]
    have hrest : (free.eraseP (·.fits goal)).map Block.look =
        (free.map Block.look).erase goal.look := by
      rw [List.erase_eq_eraseP', List.eraseP_map]
      congr 2
      funext b
      rw [Function.comp_apply, Bool.eq_iff_iff, Block.fits_iff_look_eq, beq_iff_eq]
    rw [matched, Bool.and_eq_true, ih, hany, hrest, List.map_cons, cons_subperm_iff]

/-- The order of the blocks does not matter. -/
theorem matched_perm {goals free free' : List Block} (h : free.Perm free') :
    matched goals free = matched goals free' := by
  rw [Bool.eq_iff_iff, matched_iff_subperm, matched_iff_subperm,
    (h.map Block.look).subperm_left]

/-! ## Used numbers -/

/-- The search through blocks in a given order that notes the numbers of the blocks it has used. -/
def search (order : List Block) : List Nat → List Block → Bool
  | _, [] => true
  | used, goal :: goals =>
    match order.find? fun b => !used.contains b.id && b.fits goal with
    | none => false
    | some b => search order (b.id :: used) goals

/-- Removing the first block that fits is removing the block of its number. -/
theorem eraseP_eq_filter_id {free : List Block} (hnodup : (free.map Block.id).Nodup)
    {p : Block → Bool} {b : Block} (h : free.find? p = some b) :
    free.eraseP p = free.filter (·.id ≠ b.id) := by
  obtain ⟨hp, before, after, rfl, hbefore⟩ := List.find?_eq_some_iff_append.mp h
  simp only [List.map_append, List.map_cons, List.nodup_append, List.nodup_cons, List.mem_map,
    List.mem_cons, not_exists, not_and] at hnodup
  obtain ⟨-, ⟨hafter, -⟩, hapart⟩ := hnodup
  have hkept₁ : before.filter (·.id ≠ b.id) = before :=
    List.filter_eq_self.mpr fun a ha =>
      decide_eq_true (hapart a.id ⟨a, ha, rfl⟩ b.id (Or.inl rfl))
  have hkept₂ : after.filter (·.id ≠ b.id) = after :=
    List.filter_eq_self.mpr fun a ha => decide_eq_true (hafter a ha)
  rw [List.eraseP_append_right _ (fun a ha => by simpa using hbefore a ha),
    List.eraseP_cons_of_pos hp, List.filter_append, hkept₁,
    List.filter_cons_of_neg (by simp), hkept₂]

/-- Keeping the numbers of the used blocks comes to the same as removing these blocks. -/
theorem search_eq_matched {order : List Block} (hnodup : (order.map Block.id).Nodup)
    (goals : List Block) (used : List Nat) :
    search order used goals = matched goals (order.filter fun b => !used.contains b.id) := by
  induction goals generalizing used with
  | nil => rfl
  | cons goal goals ih =>
    have hfree : ((order.filter fun b => !used.contains b.id).map Block.id).Nodup :=
      hnodup.sublist (List.filter_sublist.map Block.id)
    have hsame : (order.find? fun b => !used.contains b.id && b.fits goal) =
        (order.filter fun b => !used.contains b.id).find? (·.fits goal) := by
      rw [List.find?_filter]
      simp only [Bool.decide_and, Bool.decide_eq_true]
    rw [search, matched, hsame]
    cases hfind : (order.filter fun b => !used.contains b.id).find? (·.fits goal) with
    | none =>
      have hany : (order.filter fun b => !used.contains b.id).any (·.fits goal) = false :=
        List.any_eq_false.mpr (List.find?_eq_none.mp hfind)
      rw [hany, Bool.false_and]
    | some b =>
      have hfits : b.fits goal = true := by simpa using List.find?_some hfind
      have hany : (order.filter fun b => !used.contains b.id).any (·.fits goal) = true :=
        List.any_eq_true.mpr ⟨b, List.mem_of_find?_eq_some hfind, hfits⟩
      simp only [hany, Bool.true_and, eraseP_eq_filter_id hfree hfind, List.filter_filter, ih]
      congr 2
      funext a
      simp [Bool.not_or]

/-! ## Assignments of blocks to goals -/

/-- Looks are found among the looks of blocks exactly when they are the looks of some of these
blocks. -/
theorem map_look_subperm_iff {goals free : List Block} :
    Subperm (goals.map Block.look) (free.map Block.look) ↔
      ∃ used, Subperm used free ∧ used.map Block.look = goals.map Block.look := by
  constructor
  · rintro ⟨looks, hperm, hsublist⟩
    obtain ⟨some, hsome, rfl⟩ := List.sublist_map_iff.mp hsublist
    -- the blocks are there, and only have to be brought into the order of the goals
    have hcomp := congrFun (congrFun (List.eq_map_comp_perm Block.look) (goals.map Block.look)) some
    obtain ⟨used, hused, hsome'⟩ := hcomp.mpr hperm.symm
    exact ⟨used, hsome'.subperm.trans hsome.subperm, hused.symm⟩
  · rintro ⟨used, ⟨some, hperm, hsublist⟩, hlook⟩
    exact ⟨some.map Block.look, hlook ▸ hperm.map Block.look, hsublist.map Block.look⟩

/-- Several blocks of different numbers that lie in the world can be listed apart. -/
theorem subperm_blocks_ofFn {w : World} (h : w.Consistent) {n : Nat} {number : Fin n → Nat}
    (hinjective : Function.Injective number) {b : Fin n → Block}
    (hb : ∀ i, w.lying[number i]? = some (b i)) : Subperm (List.ofFn b) w.blocks := by
  have hid : ∀ i, (b i).id = number i := fun i => h.id_eq _ _ (hb i)
  have hnodup : (List.ofFn b).Nodup := by
    rw [List.nodup_ofFn]
    intro i j hij
    exact hinjective (by rw [← hid i, ← hid j, hij])
  refine List.subperm_of_subset hnodup fun a ha => ?_
  obtain ⟨i, rfl⟩ := List.mem_ofFn.mp ha
  exact (mem_blocks_iff w _).mpr ⟨number i, hb i⟩

/-- Blocks that are listed apart have different numbers. -/
theorem Consistent.nodup_ids_of_subperm {w : World} (h : w.Consistent) {used : List Block}
    (hused : Subperm used w.blocks) : (used.map Block.id).Nodup := by
  obtain ⟨some, hperm, hsublist⟩ := hused
  exact (hperm.map Block.id).nodup_iff.mp (h.nodup_ids.sublist (hsublist.map Block.id))

/-- The search succeeds exactly when different lying blocks can be assigned to the goals that look
like them. -/
theorem Consistent.matched_iff {w : World} (h : w.Consistent) (goals : List Block) :
    matched goals w.blocks = true ↔ ∃ number : Fin goals.length → Nat,
      Function.Injective number ∧
        ∀ i, ∃ b : Block, w.lying[number i]? = some b ∧ b.look = goals[i].look := by
  rw [matched_iff_subperm, map_look_subperm_iff]
  constructor
  · rintro ⟨used, hused, hlook⟩
    have hlength : used.length = goals.length := by simpa using congrArg List.length hlook
    have hi : ∀ i : Fin goals.length, (i : Nat) < used.length := by
      rw [hlength]
      exact Fin.isLt
    have hnodup := h.nodup_ids_of_subperm hused
    refine ⟨fun i => (used.get ⟨i, hi i⟩).id, fun i j hij => ?_, fun i => ?_⟩
    · have hget : used.get ⟨i, hi i⟩ = used.get ⟨j, hi j⟩ :=
        List.inj_on_of_nodup_map hnodup (List.get_mem _ _) (List.get_mem _ _) hij
      have hfin := List.nodup_iff_injective_get.mp (List.Nodup.of_map _ hnodup) hget
      exact Fin.ext (Fin.mk.inj hfin)
    · obtain ⟨id, hid⟩ := (mem_blocks_iff w _).mp (hused.subset (List.get_mem used ⟨i, hi i⟩))
      refine ⟨used.get ⟨i, hi i⟩, ?_, ?_⟩
      · show w.lying[(used.get ⟨i, hi i⟩).id]? = _
        rw [h.id_eq id _ hid]
        exact hid
      · have hget := congrArg (·[(i : Nat)]?) hlook
        simpa [hi i] using hget
  · rintro ⟨number, hinjective, hfound⟩
    choose b hb hlook using hfound
    refine ⟨List.ofFn b, subperm_blocks_ofFn h hinjective hb, ?_⟩
    apply List.ext_getElem
    · simp
    · intro i h₁ h₂
      simpa using hlook ⟨i, by simpa using h₂⟩

/-! ## The goal of a challenge -/

/-- The goal blocks are in shape. -/
theorem shaped_of_blocksFrom {c : Challenge} {placements : List Placement} {id : Nat}
    {goal : List Block} (h : c.blocksFrom id placements = .ok goal) : ∀ b ∈ goal, b.Shaped := by
  intro b hb
  obtain ⟨j, hj⟩ := List.getElem?_of_mem hb
  rw [Challenge.blocksFrom_getElem? h, Option.bind_eq_some_iff] at hj
  obtain ⟨p, -, hmap⟩ := hj
  obtain ⟨s, -, rfl⟩ := Option.map_eq_some_iff.mp hmap
  exact Block.shaped_place _ _ p.position p.rotation

/-- The world of a challenge has the goal that the challenge asks for. -/
theorem goal_ofChallenge {c : Challenge} {w : World} (h : ofChallenge c = .ok w) :
    c.blocksFrom 0 c.goal = .ok w.goal := by
  obtain ⟨start, goal, -, hgoal, -, rfl⟩ := ofChallenge_eq_ok_iff.mp h
  exact hgoal

/-- No operation changes the goal. -/
theorem goal_after (w : World) (operation : Operation) : (w.after operation).goal = w.goal := by
  cases operation with
  | grip c =>
    rcases w.grip_cases c with ⟨fault, heq⟩ | ⟨id, b, -, -, -, heq⟩ <;> rw [after, heq]
    rfl
  | release c =>
    rcases w.release_cases c with ⟨fault, heq⟩ | ⟨b, -, -, heq⟩ <;> rw [after, heq]
    rfl
  | turn degrees =>
    rcases w.turnHeld_cases degrees with ⟨fault, heq⟩ | ⟨b, -, heq⟩ <;> rw [after, heq]

/-- Several operations do not change the goal. -/
theorem goal_afterAll (w : World) (operations : List Operation) :
    (w.afterAll operations).goal = w.goal := by
  induction operations generalizing w with
  | nil => rfl
  | cons operation operations ih => exact (ih _).trans (w.goal_after operation)

/-! ## The judgement -/

/-- Goals that are reached cover different cells: the blocks that lie there do. -/
theorem Consistent.disjoint_of_matched {w : World} (h : w.Consistent)
    (hshaped : ∀ b ∈ w.blocks, b.Shaped) {goals : List Block} (hgoals : ∀ g ∈ goals, g.Shaped)
    (hmatched : matched goals w.blocks = true) :
    goals.Pairwise fun g₁ g₂ => g₁.cells.Disjoint g₂.cells := by
  obtain ⟨number, hinjective, hfound⟩ := (h.matched_iff goals).mp hmatched
  have hcells : ∀ i : Fin goals.length, ∃ b : Block,
      w.lying[number i]? = some b ∧ b.cells = goals[i].cells := by
    intro i
    obtain ⟨b, hb, hlook⟩ := hfound i
    have hbshaped := hshaped b ((mem_blocks_iff w b).mpr ⟨_, hb⟩)
    exact ⟨b, hb, hbshaped.cells_eq_of_look_eq (hgoals _ (List.getElem_mem _)) hlook⟩
  rw [List.pairwise_iff_getElem]
  intro i j hi hj hij c hc₁ hc₂
  obtain ⟨b₁, hb₁, hcells₁⟩ := hcells ⟨i, hi⟩
  obtain ⟨b₂, hb₂, hcells₂⟩ := hcells ⟨j, hj⟩
  -- both blocks would be noted on the cell
  have hocc₁ := (h.occupied_iff c _).mpr ⟨b₁, hb₁, hcells₁ ▸ hc₁⟩
  have hocc₂ := (h.occupied_iff c _).mpr ⟨b₂, hb₂, hcells₂ ▸ hc₂⟩
  have hnumber := hinjective (Option.some.inj (hocc₁.symm.trans hocc₂))
  exact absurd (Fin.mk.inj hnumber) (Nat.ne_of_lt hij)

/-- What holds of the judgement of a world of a challenge. -/
structure Judged (c : Challenge) (w : World) : Prop where
  /-- The goal is still what the challenge asks for. -/
  goal_eq : c.blocksFrom 0 c.goal = .ok w.goal
  /-- The goal is reached exactly when lying blocks of different numbers can be assigned to the goal
  blocks that they agree with. -/
  solved_iff : w.solved = true ↔ ∃ number : Fin w.goal.length → Nat,
    Function.Injective number ∧
      ∀ i, ∃ b : Block, w.lying[number i]? = some b ∧ b.Agrees w.goal[i]
  /-- A search through the lying blocks in any order comes to the same. -/
  search_eq : ∀ order : List Block, order.Perm w.blocks → search order [] w.goal = w.solved
  /-- The goal is only reached if no cell belongs to two goal blocks. -/
  disjoint_of_solved : w.solved = true →
    w.goal.Pairwise fun g₁ g₂ => g₁.cells.Disjoint g₂.cells

/-- **The judgement.**  In every world that a challenge leads to, the goal is reached exactly when
different lying blocks can be assigned to the goal blocks that they agree with.  The order of the
search does not matter, and goal blocks that overlap are never reached. -/
theorem judged_afterAll {c : Challenge} {w : World} (h : ofChallenge c = .ok w)
    (operations : List Operation) : Judged c (w.afterAll operations) := by
  obtain ⟨types, -, hstock⟩ := ofChallenge_stocked h
  have hplayed := hstock.afterAll operations
  have hgoal : c.blocksFrom 0 c.goal = .ok (w.afterAll operations).goal := by
    rw [goal_afterAll]
    exact goal_ofChallenge h
  have hgoals := shaped_of_blocksFrom hgoal
  have hshaped : ∀ b ∈ (w.afterAll operations).blocks, b.Shaped := fun b hb =>
    hplayed.shaped b.id b ((hplayed.consistent.mem_everyBlock_iff b).mp
      (List.mem_append_left _ hb))
  constructor
  case goal_eq => exact hgoal
  case solved_iff =>
    rw [solved, hplayed.consistent.matched_iff]
    refine exists_congr fun number => and_congr_right fun _ => forall_congr' fun i =>
      exists_congr fun b => and_congr_right fun hb => ?_
    exact (hshaped b ((mem_blocks_iff _ b).mpr ⟨_, hb⟩)).look_eq_iff
      (hgoals _ (List.getElem_mem _))
  case search_eq =>
    intro order horder
    have hnodup : (order.map Block.id).Nodup :=
      (horder.map Block.id).nodup_iff.mpr hplayed.consistent.nodup_ids
    rw [search_eq_matched hnodup, solved, ← matched_perm horder]
    simp
  case disjoint_of_solved =>
    exact hplayed.consistent.disjoint_of_matched hshaped hgoals

/-- Two cubes that each lie where the other one is numbered in the goal, one of them turned. -/
def exchangedCubes : Challenge where
  name := "exchange"
  blockTypes := (∅ : SidesByName).insert "cube" ⟨1, 1⟩
  start := [⟨⟨3, 4, 1⟩, 0, "cube"⟩, ⟨⟨5, 4, 1⟩, 0, "cube"⟩]
  goal := [⟨⟨5, 4, 1⟩, 90, "cube"⟩, ⟨⟨3, 4, 1⟩, 0, "cube"⟩]

/-- The cube of a number. -/
def cube (id : Nat) (center : Cell) (degrees : Int32) : Block :=
  .place id ⟨"cube", 1, 1⟩ center degrees

/-- The cubes as they are laid out. -/
def cubes : World :=
  { ((empty exchangedCubes).laid (cube 0 ⟨3, 4, 1⟩ 0)).laid (cube 1 ⟨5, 4, 1⟩ 0) with
    goal := [cube 0 ⟨5, 4, 1⟩ 90, cube 1 ⟨3, 4, 1⟩ 0] }

/-- The cubes can be laid out. -/
theorem ofChallenge_exchangedCubes : ofChallenge exchangedCubes = .ok cubes := by
  have hblock : ∀ id < maxBlocks, ∀ c d,
      exchangedCubes.block id ⟨c, d, "cube"⟩ = .ok (cube id c d) := fun id hid c d =>
    block_of_sides (s := ⟨1, 1⟩) (by simp [exchangedCubes]) (by decide) hid
  have hapart : ∀ c ∈ (cube 1 ⟨5, 4, 1⟩ 0).cells, c ∉ (cube 0 ⟨3, 4, 1⟩ 0).cells := by
    decide +kernel
  have hstart : exchangedCubes.start = [⟨⟨3, 4, 1⟩, 0, "cube"⟩, ⟨⟨5, 4, 1⟩, 0, "cube"⟩] := rfl
  have hgoal : exchangedCubes.goal = [⟨⟨5, 4, 1⟩, 90, "cube"⟩, ⟨⟨3, 4, 1⟩, 0, "cube"⟩] := rfl
  rw [ofChallenge, hstart, layFrom_cons (hblock 0 (by decide) _ _) (fun c _ => by simp [empty]),
    layFrom_cons (hblock (0 + 1) (by decide) _ _) fun c hc => by
      rw [occupied_laid, if_neg (hapart c hc)]
      simp [empty]]
  simp only [layFrom, hgoal, Challenge.blocksFrom, hblock 0 (by decide), hblock (0 + 1) (by decide)]
  rfl

/-- The exchange is reached as it is laid out, and it is judged rightly after a turn and after a
release that fails. -/
theorem judged_exchangedCubes : ofChallenge exchangedCubes = .ok cubes ∧
    (cubes.afterAll []).solved = true ∧
    Judged exchangedCubes (cubes.afterAll [.grip ⟨3, 4, 1⟩, .turn 90, .release ⟨5, 4, 1⟩]) := by
  refine ⟨ofChallenge_exchangedCubes, ?_, judged_afterAll ofChallenge_exchangedCubes _⟩
  have hinjective : Function.Injective fun i : Fin 2 => 1 - (i : Nat) := by
    rintro i j (hij : 1 - (i : Nat) = 1 - (j : Nat))
    omega
  refine (judged_afterAll ofChallenge_exchangedCubes []).solved_iff.mpr
    ⟨fun i : Fin 2 => 1 - i, hinjective, fun i : Fin 2 => ?_⟩
  have hlying : ∀ id : Nat, cubes.lying[id]? = if 1 = id then some (cube 1 ⟨5, 4, 1⟩ 0) else
      if 0 = id then some (cube 0 ⟨3, 4, 1⟩ 0) else none := by
    intro id
    show (((empty exchangedCubes).laid (cube 0 ⟨3, 4, 1⟩ 0)).laid
      (cube 1 ⟨5, 4, 1⟩ 0)).lying[id]? = _
    rw [lying_laid, lying_laid]
    simp [cube, Block.place, Block.refresh, empty]
  obtain rfl | rfl : i = 0 ∨ i = 1 := by omega
  · exact ⟨_, hlying 1, rfl, rfl, by decide⟩
  · exact ⟨_, hlying 0, rfl, rfl, rfl⟩

end World

end BlockArm
