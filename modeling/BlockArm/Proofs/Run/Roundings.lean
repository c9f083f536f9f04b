/-
# The turns that a statement rounds

A statement computes with whole numbers of 32 bits how far the held block turns: turns of the servo
are rounded to quarter turns and counted in degrees, and a tour adds them up.  If none of the exact
results leaves the range of 32 bits, then the effect of the statement is exact.  Otherwise it breaks
down, with what it has done so far.

* `WristSetting.misses`: the turns that the servo is off where angles were not met;
* `Station.roundings`, `drift`: the turns that a statement rounds, and the sums of the first of them;
* `SumsFit`: turns and sums that 32 bits hold;
* `Outcome.Tallies`: an outcome that is exact, or an overflow;
* `Station.tallies_visit`: a tour adds its drifts up;
* `Station.tallies_plan`: and so does every statement;
* `Scene.run_overflow_iff`: a run overflows just where one of its stages does.
-/
import BlockArm.Proofs.Run.Breakdowns
import BlockArm.Proofs.Run.Turning
import BlockArm.Proofs.Run.Warnings

namespace BlockArm

variable {σ α : Type}

/-! ## The turns of a statement -/

namespace WristSetting

/-- The turns that the servo is off the angles asked for, where these were not met.  A held block
drifts by them. -/
def misses : List (WristSetting Float) → List ServoTurn
  | [] => []
  | exact _ :: settings => misses settings
  | clamped requested applied :: settings => ⟨requested, applied⟩ :: misses settings

theorem mem_misses {settings : List (WristSetting Float)} {turn : ServoTurn} :
    turn ∈ misses settings ↔ clamped turn.before turn.after ∈ settings := by
  induction settings with
  | nil => exact iff_of_false List.not_mem_nil List.not_mem_nil
  | cons setting settings ih =>
    cases setting with
    | exact a => rw [misses, ih, List.mem_cons, or_iff_right (by simp)]
    | clamped requested applied =>
      obtain ⟨before, after⟩ := turn
      rw [misses, List.mem_cons, ih, List.mem_cons, ServoTurn.mk.injEq, clamped.injEq]

theorem length_misses_le (settings : List (WristSetting Float)) :
    (misses settings).length ≤ settings.length := by
  induction settings with
  | nil => exact le_rfl
  | cons setting settings ih =>
    cases setting with
    | exact a => exact ih.trans (Nat.le_succ _)
    | clamped requested applied => exact Nat.succ_le_succ ih

end WristSetting

open WristSetting (misses)

/-- The sum of the first few rounded turns. -/
def drift (turns : List ServoTurn) (k : Nat) : Int := ((turns.take k).map ServoTurn.degrees).sum

theorem drift_cons (turn : ServoTurn) (turns : List ServoTurn) (k : Nat) :
    drift (turn :: turns) (k + 1) = turn.degrees + drift turns k := by
  rw [drift, List.take_succ_cons, List.map_cons, List.sum_cons, drift]

/-- The turns fit into 32 bits, and so do the sums of the first of them, from `m` on. -/
structure SumsFit (m : Int) (turns : List ServoTurn) : Prop where
  products : ∀ turn ∈ turns, turn.Fits
  sums : ∀ k, IsInt32 (m + drift turns k)

theorem sumsFit_nil {m : Int} : SumsFit m [] ↔ IsInt32 m := by
  refine ⟨fun h => by simpa [drift] using h.sums 0, fun hm => ⟨?_, fun k => ?_⟩⟩
  · exact fun turn hturn => absurd hturn List.not_mem_nil
  · simpa [drift] using hm

/-- The first turn fits, and the others do from there on. -/
theorem sumsFit_cons {m : Int} {turn : ServoTurn} {turns : List ServoTurn} :
    SumsFit m (turn :: turns) ↔ turn.Fits ∧ IsInt32 m ∧ SumsFit (m + turn.degrees) turns := by
  constructor
  · intro h
    obtain ⟨hfirst, hrest⟩ := List.forall_mem_cons.mp h.products
    refine ⟨hfirst, by simpa [drift] using h.sums 0, hrest, fun k => ?_⟩
    have hsum := h.sums (k + 1)
    rwa [drift_cons, ← add_assoc] at hsum
  · rintro ⟨hfirst, hm, hrest⟩
    refine ⟨List.forall_mem_cons.mpr ⟨hfirst, hrest.products⟩, fun k => ?_⟩
    cases k with
    | zero => simpa [drift] using hm
    | succ k =>
      rw [drift_cons, ← add_assoc]
      exact hrest.sums k

theorem sumsFit_zero_nil : SumsFit 0 [] := sumsFit_nil.mpr (by decide)

/-- A single turn fits just if it fits. -/
theorem sumsFit_singleton {turn : ServoTurn} : SumsFit 0 [turn] ↔ turn.Fits := by
  rw [sumsFit_cons, sumsFit_nil, zero_add]
  exact ⟨And.left, fun h => ⟨h, by decide, h⟩⟩

/-- The outcome of a plan that adds turns up, from `m` on: an overflow just where they do not fit, and
otherwise, if it turns a held block, the exact sum. -/
structure Outcome.Tallies (m : Int) (turns : List ServoTurn) (o : Outcome Effect) : Prop where
  overflow_iff : o = .broken .overflow ↔ ¬ SumsFit m turns
  toInt_eq : ∀ n : Int32, o = .value (.turn n) → n.toInt = m + (turns.map ServoTurn.degrees).sum

/-- Where there is nothing to add up, it is neither added to nor is there an overflow. -/
theorem Outcome.tallies_nil {m : Int32} {o : Outcome Effect} (hover : o ≠ .broken .overflow)
    (hturn : ∀ n : Int32, o = .value (.turn n) → n = m) : o.Tallies m.toInt [] where
  overflow_iff := iff_of_false hover (not_not.mpr (sumsFit_nil.mpr (isInt32_toInt m)))
  toInt_eq n h := by
    rw [hturn n h]
    exact (add_zero _).symm

/-- An overflow is what turns that do not fit come to. -/
theorem Outcome.tallies_overflow {m : Int} {turns : List ServoTurn} (h : ¬ SumsFit m turns) :
    (Outcome.broken .overflow : Outcome Effect).Tallies m turns where
  overflow_iff := iff_of_true rfl h
  toInt_eq _ h := absurd h (by simp)

namespace Station

open Plan

/-- The turns that a statement rounds, in order, as far as it gets. -/
def roundings (st : Station) (d : Device σ) (statement : Statement) (r : Rig σ) :
    List ServoTurn :=
  match statement.command with
  | .turn _ => (st.wristSettings d statement r).map fun setting => ⟨r.arm.wrist, setting.angle⟩
  | .diagnose [] =>
    match (d.perform (.setWrist st.workspace.wristCenter) r.device).1.answer with
    | .done => [⟨r.arm.wrist, st.workspace.wristCenter⟩]
    | .failed _ | .crashed => []
  | .move .. | .lift _ | .grip | .release | .diagnose (_ :: _) =>
    misses (st.wristSettings d statement r)

variable {st : Station} {d : Device σ} {r r' : Rig σ}

/-- A leg that is gone leaves the arm where it ends, with the angle that keeps a held block in place as
far as the range allows. -/
theorem ensures_travel_followed (arm : ArmState) (x y : Int32) (device : σ) :
    (st.travel arm x y).Ensures d
      (fun v _ arm' => arm' = v.1 ∧ v.1.wrist = v.2.angle ∧
        ∃ spot, v.2 = st.workspace.follow arm.wrist arm.pose.spot spot)
      (fun _ _ => True) device arm := by
  unfold travel
  cases st.workspace.spotAt x y arm.pose.z with
  | error fault => trivial
  | ok spot =>
    simp only [Plan.ofExcept, Plan.bind_eq, Plan.done_bind, Plan.ensures_bind]
    refine Plan.ensures_act (fun _ => ?_) fun _ => trivial
    exact Plan.ensures_act (fun _ => ⟨rfl, rfl, spot, rfl⟩) fun _ => trivial

/-! ### Adding up -/

/-- A single turn that is rounded. -/
theorem tallies_snap (turn : ServoTurn) :
    (((checked (snapToQuarter? (turn.after - turn.before))).bind fun m =>
      done (Effect.turn m)).exec d r).1.Tallies 0 [turn] := by
  cases hsnap : snapToQuarter? (turn.after - turn.before) with
  | none =>
    have hfits := (ServoTurn.snapToQuarter?_eq_none_iff turn).mp hsnap
    exact Outcome.tallies_overflow (mt sumsFit_singleton.mp hfits)
  | some m =>
    have hm := (ServoTurn.snapToQuarter?_eq_some_iff turn).mp hsnap
    refine ⟨iff_of_false (by simp [checked, exec]) (not_not.mpr ?_), fun n hn => ?_⟩
    · exact sumsFit_singleton.mpr (ServoTurn.fits_of_toInt hm)
    · obtain rfl : m = n := Effect.turn.inj (Outcome.value.inj hn)
      rw [hm, List.map_singleton, List.sum_singleton, zero_add]

/-- A turn that is rounded once a call is done. -/
theorem tallies_act {c : Call} {f : Unit → Plan Effect} (turn : ServoTurn)
    (h : ((f ()).exec d (r.ask d c).2).1.Tallies 0 [turn]) :
    (((act c).bind f).exec d r).1.Tallies 0
      (match (d.perform c r.device).1.answer with
        | .done => [turn]
        | .failed _ | .crashed => []) := by
  simp only [act, Plan.bind, exec, Rig.ask_fst]
  cases (d.perform c r.device).1.answer with
  | done => exact h
  | failed message => exact Outcome.tallies_nil (m := 0) (by simp) (by simp)
  | crashed => exact Outcome.tallies_nil (m := 0) (by simp) (by simp)

/-- What is added up from a leg on, if the leg is gone. -/
theorem tallies_leg {m : Int32} {x y : Int32}
    {after : WristSetting Float → Rig σ → List (WristSetting Float)}
    (hafter : ∀ setting, Local (after setting)) {next : ArmState × WristSetting Float → Plan Effect}
    (r : Rig σ) (hnext : ∀ setting (r : Rig σ),
      ((next (r.arm, setting)).exec d r).1.Tallies m.toInt (misses (setting :: after setting r))) :
    (((st.travel r.arm x y).bind fun v => (warnOf v.2).bind fun _ => next v).exec d r).1.Tallies
      m.toInt (misses (st.legThen d x y r after)) := by
  have hmeets := ensures_exec (st.ensures_travel_followed (d := d) r.arm x y r.device)
  have hover := (st.breaksOnly_travel r.arm x y).exec_ne_overflow (d := d) r
  rw [legThen, exec_bind]
  rcases hexec : (st.travel r.arm x y).exec d r with ⟨outcome, gone⟩
  rw [hexec] at hmeets hover
  cases outcome with
  | fault fault => exact Outcome.tallies_nil (by simp) (by simp)
  | broken b =>
    refine Outcome.tallies_nil (fun hb => hover ?_) (by simp)
    rw [Outcome.broken.inj hb]
  | value v =>
    obtain ⟨there, setting⟩ := v
    obtain ⟨harm, -⟩ := hmeets
    obtain rfl : gone.arm = there := harm
    -- the warning changes nothing that the turns depend on
    obtain ⟨warned, hwarn, hdevice, harm', -⟩ := exec_warnOf d setting gone
    have hrest := hnext setting warned
    rw [hafter setting hdevice harm', harm'] at hrest
    simp only [exec_bind, hwarn]
    exact hrest

/-- A tour adds the drifts of its legs up. -/
theorem tallies_visit (columns : List (Int32 × Int32)) : ∀ (m : Int32) (r : Rig σ),
    (((st.visit r.arm m columns).bind fun n => done (Effect.turn n)).exec d r).1.Tallies m.toInt
      (misses (st.legSettings d m columns r)) := by
  -- the induction follows the columns; the sum so far is that of the turns before
  induction columns with
  | nil =>
    intro m r
    exact Outcome.tallies_nil (by simp [visit, exec])
      fun n hn => (Effect.turn.inj (Outcome.value.inj hn)).symm
  | cons column columns ih =>
    intro m r
    rw [visit, Plan.bind_eq, Plan.bind_assoc]
    simp only [Plan.bind_eq, Plan.bind_assoc]
    refine tallies_leg (fun setting r r' hdevice harm => ?_) r fun setting r => ?_
    · cases setting.drift?.bind (addTurns? m) with
      | none => rfl
      | some sum => exact st.legSettings_congr d columns sum hdevice harm
    · cases setting with
      | exact a =>
        have hzero : addTurns? m 0 = some m := addTurns?_eq_some_iff.mpr (add_zero _).symm
        simp only [misses, WristSetting.drift?, Option.bind_some, hzero, checked, done_bind]
        exact ih m r
      | clamped requested applied =>
        simp only [misses, WristSetting.drift?]
        cases hsnap : snapToQuarter? (applied - requested) with
        | none =>
          have hfits := (ServoTurn.snapToQuarter?_eq_none_iff ⟨requested, applied⟩).mp hsnap
          exact Outcome.tallies_overflow fun h => hfits (sumsFit_cons.mp h).1
        | some turned =>
          have hturned :=
            (ServoTurn.snapToQuarter?_eq_some_iff ⟨requested, applied⟩).mp hsnap
          simp only [Option.bind_some, checked, done_bind]
          cases hsum : addTurns? m turned with
          | none =>
            have hrange := addTurns?_eq_none_iff.mp hsum
            rw [hturned] at hrange
            refine Outcome.tallies_overflow fun h => hrange ?_
            exact sumsFit_nil.mp (sumsFit_cons.mp h).2.2
          | some sum =>
            have htoInt := addTurns?_eq_some_iff.mp hsum
            rw [hturned] at htoInt
            obtain ⟨hover, hexact⟩ := ih sum r
            simp only [done_bind]
            refine ⟨hover.trans (not_congr ?_), fun n hn => ?_⟩
            · rw [sumsFit_cons, htoInt]
              exact ⟨fun h => ⟨ServoTurn.fits_of_toInt hturned, isInt32_toInt m, h⟩,
                fun h => h.2.2⟩
            · rw [hexact n hn, htoInt, List.map_cons, List.sum_cons, add_assoc]

/-- A statement that rounds no turns does not turn a held block. -/
theorem ensures_unturned (arm : ArmState) (device : σ) {statement : Statement}
    (h : statement.command.rounds = false) : (st.plan arm statement).Ensures d
      (fun effect _ _ => ∀ n : Int32, effect = .turn n → n = 0) (fun _ _ => True) device arm := by
  have hzero : ∀ n : Int32, Effect.turn 0 = .turn n → n = 0 := fun n hn => (Effect.turn.inj hn).symm
  obtain ⟨line, command⟩ := statement
  refine (?_ : (st.commandPlan arm line command).Ensures d _ _ device arm)
  cases command with
  | move x y | turn degrees => exact absurd h (by simp [Command.rounds])
  | lift z =>
    refine (?_ : (st.lift arm z).Ensures d _ _ device arm)
    simp only [lift, Plan.bind_eq, Plan.pure_eq, ensures_bind, ensures_assume, ensures_done]
    refine ensures_of_forall (E := fun _ _ => True) (fun height s arm => ?_) (fun _ _ => trivial) _
      device arm
    exact ensures_act (fun _ => hzero) fun _ => trivial
  | grip =>
    refine (?_ : (st.grip arm).Ensures d _ _ device arm)
    simp only [grip, Plan.bind_eq, ensures_bind, ensures_assume, Plan.pure_eq, ensures_done]
    refine ensures_act (fun _ => ?_) fun _ => trivial
    refine ensures_act (fun _ => ?_) fun _ => trivial
    refine ensures_act (fun _ => ?_) fun _ => trivial
    exact ensures_act (fun _ _ hgrip => absurd hgrip (by simp)) fun _ => trivial
  | release =>
    refine (?_ : (release arm).Ensures d _ _ device arm)
    rw [release, Plan.bind_eq, ensures_bind]
    exact ensures_act (fun _ _ hrelease => absurd hrelease (by simp)) fun _ => trivial
  | diagnose arguments =>
    cases arguments with
    | nil => exact absurd h (by simp [Command.rounds])
    | cons mode more =>
      have htour : mode ≠ 1 := of_decide_eq_false h
      by_cases hsweep : mode = 0
      · subst hsweep
        refine (?_ : (st.sweep arm).Ensures d _ _ device arm)
        simp only [sweep, Plan.bind_eq, Plan.pure_eq, ensures_bind, ensures_done]
        refine ensures_of_forall (E := fun _ _ => True) (fun _ s arm => ?_) (fun _ _ => trivial) _
          device arm
        exact ensures_act (fun _ => hzero) fun _ => trivial
      · refine (?_ : (st.diagnose arm line (mode :: more)).Ensures d _ _ device arm)
        simp only [diagnose, if_neg hsweep, if_neg htour]
        trivial

/-- So it has nothing to add up. -/
theorem tallies_unturned {statement : Statement} (h : statement.command.rounds = false) (r : Rig σ) :
    ((st.plan r.arm statement).exec d r).1.Tallies 0 [] := by
  have hbreaks : (st.plan r.arm statement).BreaksOnly (· ≠ .overflow) :=
    st.breaksOnly_plan r.arm (fun hrounds => absurd (h.symm.trans hrounds) Bool.false_ne_true)
      fun _ _ => by simp
  have hmeets := ensures_exec (st.ensures_unturned (d := d) r.arm r.device h)
  refine Outcome.tallies_nil (m := 0) (hbreaks.exec_ne_overflow r) fun n hn => ?_
  rw [hn] at hmeets
  exact hmeets n rfl

/-- A command adds up what it rounds. -/
theorem tallies_command {line : Nat} {command : Command} (h : command.rounds = true) (r : Rig σ) :
    ((st.commandPlan r.arm line command).exec d r).1.Tallies 0
      (st.roundings d ⟨line, command⟩ r) := by
  cases command with
  | lift z | grip | release => exact absurd h (by simp [Command.rounds])
  | move x y =>
    refine tallies_leg (m := 0) (fun _ _ _ _ _ => rfl) r fun setting r => ?_
    cases setting with
    | exact a =>
      exact Outcome.tallies_nil (m := 0) (by simp [WristSetting.drift?, checked, exec])
        fun n hn => (Effect.turn.inj (Outcome.value.inj hn)).symm
    | clamped requested applied => exact tallies_snap ⟨requested, applied⟩
  | turn degrees =>
    set setting := st.workspace.turn r.arm.wrist (Number.ofInt32 degrees) with hsetting
    have hroundings : st.roundings d ⟨line, .turn degrees⟩ r =
        match (d.perform (.setWrist setting.angle) r.device).1.answer with
          | .done => [⟨r.arm.wrist, setting.angle⟩]
          | .failed _ | .crashed => [] := by
      simp only [roundings, wristSettings, ← hsetting]
      cases (d.perform (.setWrist setting.angle) r.device).1.answer <;> rfl
    rw [hroundings]
    refine tallies_act ⟨r.arm.wrist, setting.angle⟩ ?_
    obtain ⟨warned, hwarn, -⟩ := exec_warnOf d setting
      { (r.ask d (.setWrist setting.angle)).2 with arm := { r.arm with wrist := setting.angle } }
    simp only [Plan.assume, Plan.bind_eq, Plan.bind, exec, ← hsetting]
    rw [exec_bind, hwarn]
    exact tallies_snap ⟨r.arm.wrist, setting.angle⟩
  | diagnose arguments =>
    cases arguments with
    | nil =>
      exact tallies_act ⟨r.arm.wrist, st.workspace.wristCenter⟩
        (tallies_snap ⟨r.arm.wrist, st.workspace.wristCenter⟩)
    | cons mode more =>
      obtain rfl : mode = 1 := of_decide_eq_true h
      exact tallies_visit (tourColumns ++ [(r.arm.cell.x, r.arm.cell.y)]) 0 r

/-- A statement that rounds no turns has none that it rounds. -/
theorem roundings_eq_nil {statement : Statement} (h : statement.command.rounds = false)
    (r : Rig σ) : st.roundings d statement r = [] := by
  obtain ⟨line, command⟩ := statement
  cases command with
  | move x y | turn degrees => exact absurd h (by simp [Command.rounds])
  | lift z | grip | release => rfl
  | diagnose arguments =>
    cases arguments with
    | nil => exact absurd h (by simp [Command.rounds])
    | cons mode more =>
      simp only [roundings, wristSettings, if_neg (of_decide_eq_false h), misses]

/-- **Statements add their turns up.**  A statement comes to an overflow just if one of the turns that
it rounds, or the sum of the first of them, leaves the range of 32 bits.  Otherwise, if it turns the
held block, it does so by the exact sum. -/
theorem tallies_plan (st : Station) (d : Device σ) (statement : Statement) (r : Rig σ) :
    ((st.plan r.arm statement).exec d r).1.Tallies 0 (st.roundings d statement r) := by
  by_cases hrounds : statement.command.rounds = true
  · -- the message that goes before changes nothing that the turns depend on
    set said := r.say .debug (Fault.onLine statement.line statement.command.describe)
    have hdevice : said.device = r.device := r.device_say _ _
    have harm : said.arm = r.arm := r.arm_say _ _
    have hroundings : st.roundings d statement r = st.roundings d statement said := by
      simp only [roundings, st.wristSettings_congr d statement hdevice harm, hdevice, harm]
    rw [hroundings]
    have hsaid := @tallies_command σ st d statement.line _ hrounds said
    rw [harm] at hsaid
    exact hsaid
  · rw [Bool.not_eq_true] at hrounds
    rw [roundings_eq_nil hrounds]
    exact tallies_unturned hrounds r

end Station

/-! ## Runs -/

namespace Scene

variable (st : Station) (d : Device σ)

/-- A stage of a run comes to an overflow. -/
def Stage.Overflows (x : Stage σ) : Prop := ¬ SumsFit 0 (st.roundings d x.statement x.before.rig)

variable {st d}

/-- A statement overflows where its turns do not fit. -/
theorem perform_overflow_iff {statement : Statement} {s : Scene σ} :
    (perform st d statement s).1 = .broken .overflow ↔ (Stage.mk statement s).Overflows st d :=
  perform_eq_broken_iff.trans (Station.tallies_plan st d statement s.rig).overflow_iff

/-- The stages of a program that rounds no turns do not overflow. -/
theorem not_overflows_of_unturned {program : Program} {s : Scene σ}
    (h : ∀ statement ∈ program, statement.command.rounds = false) :
    ∀ x ∈ stages st d program s, ¬ x.Overflows st d := by
  intro x hx
  rw [Stage.Overflows, Station.roundings_eq_nil (h _ (statement_mem_of_mem_stages x hx)), not_not]
  exact sumsFit_zero_nil

/-- A run overflows where one of its stages does. -/
theorem run_overflow_iff {program : Program} {s : Scene σ} :
    (run st d program s).1 = .error .overflow ↔
      ∃ x ∈ stages st d program (s.begin program), x.Overflows st d := by
  constructor
  · intro h
    rcases broken_of_run h with ⟨x, hx, hover⟩ | ⟨r, hpark⟩
    · exact ⟨x, hx, perform_overflow_iff.mp hover⟩
    · exact absurd hpark (st.breaksOnly_park.exec_ne_overflow r)
  · rintro ⟨x, hx, hover⟩
    exact run_eq_error hx (perform_overflow_iff.mpr hover)

end Scene

end BlockArm
