/-
# Turning in place

While the wrist turns over one cell, a held block turns along, but only by quarter turns: each
command rounds the turn of its servo on its own, and nothing of the rounding is left for the next
one.  A wrist that comes back to its angle therefore need not bring the block back.

* `ServoTurn.carried`, `ServoTurn.error`: how far turns bring a held block, and how much farther they
  take the servo;
* `ServoTurn.sum_error`: over several turns, the errors are what the servo has turned more than the
  block;
* `Scene.turned_perform`, `Scene.turned_performAll`: a held block is turned by the rounded turns;
* `Scene.rotation_after_loop`: when a wrist that comes back brings the block back.
-/
import BlockArm.Proofs.Block.Shape
import BlockArm.Proofs.Run.Agreement
import BlockArm.Proofs.Run.ServoTurns

namespace BlockArm

variable {σ : Type}

/-! ## Turns of the servo -/

/-- The command turns the wrist, and the arm stays over its cell. -/
def Command.turnsInPlace : Command → Bool
  | turn _ | diagnose [] => true
  | move .. | lift _ | grip | release | diagnose (_ :: _) => false

namespace ServoTurn

/-- How far the servo turns, counted like the doubles in units of the smallest one. -/
def exact (turn : ServoTurn) : Int := Number.units turn.after - Number.units turn.before

/-- How much farther the servo turns than a held block. -/
def error (turn : ServoTurn) : Int := turn.exact - turn.degrees * Number.units 1

/-- How far several turns bring a held block, each of them rounded to quarter turns. -/
def carried (turns : List ServoTurn) : Int := (turns.map degrees).sum

theorem carried_cons (turn : ServoTurn) (turns : List ServoTurn) :
    carried (turn :: turns) = turn.degrees + carried turns := List.sum_cons

/-- The errors add up to what the servo turns farther than the block in all. -/
theorem sum_error (turns : List ServoTurn) :
    (turns.map error).sum = (turns.map exact).sum - carried turns * Number.units 1 := by
  unfold error carried
  generalize Number.units 1 = degree
  induction turns with
  | nil => simp only [List.map_nil, List.sum_nil, zero_mul, sub_zero]
  | cons turn turns ih =>
    simp only [List.map_cons, List.sum_cons, ih]
    ring

/-- If the servo turns nowhere in all, and the errors add up to less than a quarter turn, then a
block is brought nowhere. -/
theorem carried_eq_zero {turns : List ServoTurn} (hexact : (turns.map exact).sum = 0)
    (herror : |(turns.map error).sum| < 90 * Number.units 1) : carried turns = 0 := by
  have hquarter : 90 ∣ carried turns := by
    refine List.dvd_sum fun n hn => ?_
    obtain ⟨turn, -, rfl⟩ := List.mem_map.mp hn
    exact Dvd.intro_left _ rfl
  have hunit : 0 < Number.units 1 := (Number.lt_iff.mp (by decide : (0 : Float) < 1)).2.2
  -- the rounded turns add up to minus the errors
  rw [sum_error, hexact, zero_sub, abs_neg, abs_mul, abs_of_pos hunit] at herror
  have hsmall := abs_lt.mp (lt_of_mul_lt_mul_right herror hunit.le)
  omega

end ServoTurn

/-! ## Statements -/

/-- A turn reaches the held block and nothing else. -/
theorem World.apply_turn_held {w : World} {b : Block} (hheld : w.held = some b) (hshaped : b.Shaped)
    (degrees : Int32) : (Effect.turn degrees).apply w =
      (.ok none, { w with held := some (b.turnBy degrees) }) := by
  have hholding : w.isHolding = true := by rw [isHolding, hheld, Option.isSome_some]
  rw [Effect.apply]
  by_cases hzero : degrees = 0
  · subst hzero
    rw [if_neg fun h => h.1 rfl, hshaped.turnBy_zero, ← hheld]
  · rw [if_pos ⟨hzero, hholding⟩, turnHeld, hheld]

/-- A command that turns in place leaves the arm as it was but for the wrist, and its effect is the
rounded turn of the servo. -/
theorem Station.ensures_turned (st : Station) (d : Device σ) (device : σ) (arm : ArmState)
    {statement : Statement} (h : statement.command.turnsInPlace = true) :
    (st.plan arm statement).Ensures d
      (fun effect _ arm' => arm'.cell = arm.cell ∧ ∃ m : Int32, effect = .turn m ∧
        m.toInt = (ServoTurn.mk arm.wrist arm'.wrist).degrees)
      (fun _ _ => True) device arm := by
  have hrounded : ∀ {a : Float} {m : Int32}, snapToQuarter? (a - arm.wrist) = some m →
      m.toInt = (ServoTurn.mk arm.wrist a).degrees :=
    fun {a} {_} h => (ServoTurn.snapToQuarter?_eq_some_iff ⟨arm.wrist, a⟩).mp h
  obtain ⟨line, command⟩ := statement
  refine (?_ : (st.commandPlan arm line command).Ensures d _ _ device arm)
  cases command with
  | move x y | lift z | grip | release => exact absurd h Bool.false_ne_true
  | turn degrees =>
    refine (?_ : (st.turn arm degrees).Ensures d _ _ device arm)
    unfold turn
    simp only [Plan.bind_eq, Plan.ensures_bind, Plan.ensures_assume, Plan.ensures_warnOf]
    refine Plan.ensures_act (fun _ => ?_) fun _ => trivial
    exact Plan.ensures_checked (fun m hm => ⟨rfl, m, rfl, hrounded hm⟩) trivial
  | diagnose arguments =>
    cases arguments with
    | cons mode more => exact absurd h Bool.false_ne_true
    | nil =>
      refine (?_ : (st.centerWrist arm).Ensures d _ _ device arm)
      unfold centerWrist
      simp only [Plan.bind_eq, Plan.ensures_bind, Plan.ensures_assume]
      refine Plan.ensures_act (fun _ => ?_) fun _ => trivial
      exact Plan.ensures_checked (fun m hm => ⟨rfl, m, rfl, hrounded hm⟩) trivial

namespace Scene

variable {st : Station} {d : Device σ} {s t : Scene σ} {b : Block}

/-- The block in the gripper, where a challenge is played. -/
def held? (s : Scene σ) : Option Block := s.world.bind World.held

/-- The turns of the wrist servo in a run, one for each statement that is begun. -/
def servoTurns (st : Station) (d : Device σ) (program : Program) (s : Scene σ) : List ServoTurn :=
  (stages st d program s).map fun x =>
    ⟨x.before.rig.arm.wrist, (perform st d x.statement x.before).2.rig.arm.wrist⟩

/-- A statement that succeeds has carried out its plan, and its effect has succeeded. -/
theorem exec_of_perform {statement : Statement}
    (h : perform st d statement s = (.value (), t)) :
    ∃ effect rig, (st.plan s.rig.arm statement).exec d s.rig = (.value effect, rig) ∧
      affect effect ⟨rig, s.world⟩ = (.value (), t) := by
  obtain ⟨rig, world⟩ := s
  simp only [perform] at h
  rcases hexec : (st.plan rig.arm statement).exec d rig with ⟨outcome, after⟩
  rw [hexec] at h
  cases outcome with
  | fault fault => exact absurd (Prod.mk.inj h).1 (by simp)
  | broken cause => exact absurd (Prod.mk.inj h).1 (by simp)
  | value effect => exact ⟨effect, after, rfl, h⟩

/-- A statement that turns the wrist in place turns a held block by the rounded turn of the
servo. -/
theorem turned_perform {statement : Statement} (hplace : statement.command.turnsInPlace = true)
    (hheld : s.held? = some b) (hshaped : b.Shaped)
    (h : perform st d statement s = (.value (), t)) :
    t.rig.arm.cell = s.rig.arm.cell ∧
      ∃ b', t.held? = some b' ∧
        b.Turned (ServoTurn.mk s.rig.arm.wrist t.rig.arm.wrist).degrees b' := by
  obtain ⟨w, hworld, hw⟩ := Option.bind_eq_some_iff.mp hheld
  obtain ⟨effect, rig, hexec, haffect⟩ := exec_of_perform h
  have hmeets := Plan.ensures_exec (st.ensures_turned d s.rig.device s.rig.arm hplace)
  rw [hexec] at hmeets
  obtain ⟨hcell, m, rfl, hm⟩ : rig.arm.cell = s.rig.arm.cell ∧ ∃ m : Int32, effect = .turn m ∧
    m.toInt = (ServoTurn.mk s.rig.arm.wrist rig.arm.wrist).degrees := hmeets
  rw [hworld, affect, World.apply_turn_held hw hshaped] at haffect
  obtain rfl := (Prod.mk.inj haffect).2
  refine ⟨hcell, b.turnBy m, rfl, ?_⟩
  have hquarters : 90 ∣ m.toInt := hm ▸ Dvd.intro_left _ rfl
  exact hm ▸ hshaped.turned_turnBy_quarters hquarters

/-! ## Runs -/

/-- Statements that turn the wrist in place turn a held block by the sum of the rounded turns, and
the arm stays over its cell. -/
theorem turned_performAll {program : Program}
    (hplace : ∀ x ∈ program, x.command.turnsInPlace = true) :
    ∀ {s t : Scene σ} {b : Block} {n m : Nat}, s.held? = some b → b.Shaped →
      performAll st d n program s = (⟨.value true, m⟩, t) →
      t.rig.arm.cell = s.rig.arm.cell ∧
        ((servoTurns st d program s).map ServoTurn.exact).sum =
          Number.units t.rig.arm.wrist - Number.units s.rig.arm.wrist ∧
        ∃ b', t.held? = some b' ∧
          b.Turned (ServoTurn.carried (servoTurns st d program s)) b' := by
  -- the induction follows the program; the angles in between cancel out
  induction program with
  | nil =>
    intro s t b n m hheld hshaped hrun
    obtain rfl := (Prod.mk.inj hrun).2
    exact ⟨rfl, (sub_self _).symm, b, hheld, hshaped.turned_zero⟩
  | cons statement rest ih =>
    intro s t b n m hheld hshaped hrun
    rw [performAll] at hrun
    split at hrun
    · exact absurd (congrArg (fun out => out.1.outcome) hrun) (by simp)
    · next hstop =>
      rcases hperform : perform st d statement s with ⟨outcome, after⟩
      rw [hperform] at hrun
      cases outcome with
      | fault fault => exact absurd (congrArg (fun out => out.1.outcome) hrun) (by simp)
      | broken cause => exact absurd (congrArg (fun out => out.1.outcome) hrun) (by simp)
      | value u =>
        obtain ⟨hcell, b', hheld', hturned⟩ :=
          turned_perform (hplace _ List.mem_cons_self) hheld hshaped hperform
        obtain ⟨hcell', hexact, b'', hheld'', hturned'⟩ :=
          ih (fun x hx => hplace x (List.mem_cons_of_mem _ hx)) hheld' hturned.shaped hrun
        have hturns : servoTurns st d (statement :: rest) s =
            ⟨s.rig.arm.wrist, after.rig.arm.wrist⟩ :: servoTurns st d rest after := by
          rw [servoTurns, stages, if_neg hstop, List.map_cons, hperform]
          rfl
        refine ⟨?_, ?_, b'', hheld'', ?_⟩
        · rw [hcell', hcell]
        · rw [hturns, List.map_cons, List.sum_cons, hexact, ServoTurn.exact]
          ring
        · rw [hturns, ServoTurn.carried_cons]
          exact hturned.trans hturned'

/-- **Loops of the wrist.**  Statements that turn the wrist in place and succeed turn a held block
by the turns of the servo, each rounded on its own.  If the wrist has the angle in the end that it
had at the start, the block has its rotation again just if the rounded turns add up to a multiple
of its symmetry.  A square block always has it again, and so has every block if the errors of the
rounding add up to less than a quarter turn. -/
theorem rotation_after_loop {program : Program} {n m : Nat}
    (hplace : ∀ x ∈ program, x.command.turnsInPlace = true)
    (hheld : s.held? = some b) (hshaped : b.Shaped)
    (hrun : performAll st d n program s = (⟨.value true, m⟩, t))
    (hloop : (t.rig.arm.wrist == s.rig.arm.wrist) = true) :
    t.rig.arm.cell = s.rig.arm.cell ∧
    ∃ b', t.held? = some b' ∧ b'.center = b.center ∧ b'.blockType = b.blockType ∧
      b'.rotation.toInt =
        (b.rotation.toInt + ServoTurn.carried (servoTurns st d program s)) %
          b.blockType.symmetry.toInt ∧
      (b'.rotation = b.rotation ↔
        b.blockType.symmetry.toInt ∣ ServoTurn.carried (servoTurns st d program s)) ∧
      (b.blockType.width = b.blockType.depth → b'.rotation = b.rotation) ∧
      (|((servoTurns st d program s).map ServoTurn.error).sum| < 90 * Number.units 1 →
        b'.rotation = b.rotation) := by
  obtain ⟨hcell, hexact, b', hheld', hturned⟩ := turned_performAll hplace hheld hshaped hrun
  refine ⟨hcell, b', hheld', hturned.center, hturned.blockType,
    hturned.rotation, hturned.rotation_eq_iff hshaped, fun hsquare => ?_, fun herror => ?_⟩
  · obtain ⟨hreduced, hlow, hhigh⟩ := hshaped.rotation_range
    obtain ⟨hreduced', hlow', hhigh'⟩ := hturned.shaped.rotation_range
    have hsymmetry : b.blockType.symmetry = 90 := if_pos hsquare
    -- there is only one reduced rotation
    rw [hturned.blockType, hsymmetry] at hhigh'
    rw [hsymmetry] at hhigh
    rw [← Int32.toInt_inj]
    have hninety : (90 : Int32).toInt = 90 := rfl
    omega
  · rw [hturned.rotation_eq_iff hshaped]
    have hclosed : ((servoTurns st d program s).map ServoTurn.exact).sum = 0 := by
      rw [hexact, (Number.beq_iff.mp hloop).2.2, sub_self]
    rw [ServoTurn.carried_eq_zero hclosed herror]
    exact dvd_zero _

/-- The statements of a program were all carried out if the outcome says so. -/
theorem performAll_eq_of_outcome (st : Station) (d : Device σ) (program : Program) (s : Scene σ)
    (h : ((performAll st d 0 program s).1.outcome matches .value true) = true) :
    performAll st d 0 program s =
      (⟨.value true, (performAll st d 0 program s).1.applied⟩,
        (performAll st d 0 program s).2) := by
  generalize performAll st d 0 program s = out at h ⊢
  obtain ⟨⟨outcome, m⟩, t⟩ := out
  cases outcome with
  | value all =>
    cases all with
    | true => rfl
    | false => exact absurd h Bool.false_ne_true
  | fault fault => exact absurd h Bool.false_ne_true
  | broken cause => exact absurd h Bool.false_ne_true

/-- Turns of the wrist one after the other, and back to the centre at once. -/
def swing (steps : List Int32) : Program :=
  (steps.map fun degrees => ⟨1, .turn degrees⟩) ++ [⟨1, .diagnose []⟩]

/-- The first turn takes the board farther than the servo, and the others do not turn it, so that
the errors cancel out. -/
theorem rotation_after_loop_boardGripped : ∃ m t b',
    performAll .standard .recorder 0 (swing [50, 10, 10]) boardGripped = (⟨.value true, m⟩, t) ∧
      (t.rig.arm.wrist == boardGripped.rig.arm.wrist) = true ∧ t.held? = some b' ∧
      b'.rotation = (Block.place 0 ⟨"board", 2, 1⟩ ⟨3, 8, 2⟩ 0).rotation := by
  have hrun := performAll_eq_of_outcome .standard .recorder (swing [50, 10, 10]) boardGripped
    (by decide +kernel)
  have hloop : ((performAll .standard .recorder 0 (swing [50, 10, 10])
      boardGripped).2.rig.arm.wrist == boardGripped.rig.arm.wrist) = true := by decide +kernel
  obtain ⟨-, b', hheld, -, -, -, -, -, hrounding⟩ := rotation_after_loop (by decide) rfl
    (Block.shaped_place 0 ⟨"board", 2, 1⟩ ⟨3, 8, 2⟩ 0) hrun hloop
  exact ⟨_, _, b', hrun, hloop, hheld, hrounding (by decide +kernel)⟩

/-- Two turns by 38 degrees are less than half a quarter turn each and do not turn the board, but
the way back at once does. -/
theorem board_turned_after_loop : ∃ m t,
    performAll .standard .recorder 0 (swing [38, 38]) boardGripped = (⟨.value true, m⟩, t) ∧
      (t.rig.arm.wrist == boardGripped.rig.arm.wrist) = true ∧
      boardGripped.held?.map Block.rotation = some 0 ∧
      t.held?.map Block.rotation = some 90 := by
  have hrun := performAll_eq_of_outcome .standard .recorder (swing [38, 38]) boardGripped
    (by decide +kernel)
  exact ⟨_, _, hrun, by decide +kernel, by decide +kernel, by decide +kernel⟩

end Scene

end BlockArm
