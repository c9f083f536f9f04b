/-
# How plans and runs break down

A plan breaks down if a call crashes, and besides only where it says so itself: where a number leaves
its type, and where a sweep is given up because it does not get ahead.  Only the commands that round
turns of the wrist can come to the one, and only those that sweep to the other.  A run breaks down
with the plan of a statement, or while the arm parks.

* `Plan.BreaksOnly`: the causes that a plan itself names for breaking down;
* `Plan.BreaksOnly.cause_of_exec`: no others come about on a device that does not crash;
* `Station.SweepEnds`: a sweep gets beyond the end of its range;
* `Station.breaksOnly_plan`: what the plan of a statement breaks down for;
* `Scene.broken_of_run`, `Scene.run_eq_error`: a run breaks down at one of its stages.
-/
import BlockArm.Proofs.Run.Logic
import Mathlib.Logic.Function.Iterate

namespace BlockArm

variable {σ α β : Type}

/-! ## Plans -/

/-- The device never crashes. -/
def Device.Sturdy (d : Device σ) : Prop := ∀ c s, (d.perform c s).1.answer ≠ .crashed

/-- The recording device does not crash. -/
theorem Device.sturdy_recorder : Device.recorder.Sturdy := by
  intro c r
  simp only [Device.recorder, Recorder.perform]
  split <;> simp

namespace Plan

variable {P Q : Breakdown → Prop}

/-- The plan names no other causes for breaking down. -/
def BreaksOnly (P : Breakdown → Prop) : Plan α → Prop
  | done _ | fail _ => True
  | broken b => P b
  | call _ next => (next ()).BreaksOnly P
  | locate next => ∀ pose, (next pose).BreaksOnly P
  | believe _ next | note _ _ next | warn _ next => next.BreaksOnly P

theorem BreaksOnly.bind {p : Plan α} {f : α → Plan β} (hp : p.BreaksOnly P)
    (hf : ∀ a, (f a).BreaksOnly P) : (p.bind f).BreaksOnly P := by
  induction p with
  | done a => exact hf a
  | fail fault => trivial
  | broken b => exact hp
  | call c next ih => exact ih () hp
  | locate next ih => exact fun pose => ih pose (hp pose)
  | believe arm next ih => exact ih hp
  | note level text next ih => exact ih hp
  | warn warning next ih => exact ih hp

theorem breaksOnly_ofExcept (e : Except Fault α) : (ofExcept e).BreaksOnly P := by
  cases e <;> trivial

theorem breaksOnly_checked (o : Option α) (h : P .overflow) : (checked o).BreaksOnly P := by
  cases o with
  | none => exact h
  | some a => trivial

theorem breaksOnly_warnOf (setting : WristSetting Float) : (warnOf setting).BreaksOnly P := by
  unfold warnOf
  split <;> trivial

/-- A plan that breaks down was crashed, or names the cause itself. -/
theorem BreaksOnly.cause_of_exec {d : Device σ} {p : Plan α} {b : Breakdown} (h : p.BreaksOnly P)
    {r : Rig σ} (hexec : (p.exec d r).1 = .broken b) : P b ∨ b = .crashed ∧ ¬ d.Sturdy := by
  induction p generalizing r with
  | done a => exact absurd hexec (by simp [exec])
  | fail fault => exact absurd hexec (by simp [exec])
  | broken cause =>
    obtain rfl : cause = b := Outcome.broken.inj hexec
    exact .inl h
  | call c next ih =>
    simp only [exec, Rig.ask_fst] at hexec
    cases hanswer : (d.perform c r.device).1.answer with
    | done =>
      rw [hanswer] at hexec
      exact ih () h hexec
    | failed message =>
      rw [hanswer] at hexec
      exact absurd hexec (by simp)
    | crashed =>
      rw [hanswer] at hexec
      exact .inr ⟨(Outcome.broken.inj hexec).symm, fun hd => hd c r.device hanswer⟩
  | locate next ih =>
    simp only [exec] at hexec
    cases hpose : d.pose r.device with
    | ok pose =>
      rw [hpose] at hexec
      exact ih pose (h pose) hexec
    | error message =>
      rw [hpose] at hexec
      exact absurd hexec (by simp)
  | believe arm next ih => exact ih h hexec
  | note level text next ih => exact ih h hexec
  | warn warning next ih => exact ih h hexec

/-- So a plan that names no overflow does not come to one. -/
theorem BreaksOnly.exec_ne_overflow {d : Device σ} {p : Plan α} (h : p.BreaksOnly (· ≠ .overflow))
    (r : Rig σ) : (p.exec d r).1 ≠ .broken .overflow := by
  intro hexec
  rcases h.cause_of_exec hexec with hne | ⟨hcrashed, -⟩
  · exact hne rfl
  · exact absurd hcrashed (by simp)

/-- And a plan that names no cause at all does not break down on a device that does not crash. -/
theorem BreaksOnly.exec_ne_broken {d : Device σ} (hd : d.Sturdy) {p : Plan α}
    (h : p.BreaksOnly fun _ => False) (r : Rig σ) (b : Breakdown) : (p.exec d r).1 ≠ .broken b :=
  fun hexec => (h.cause_of_exec hexec).elim id fun hcrashed => hcrashed.2 hd

end Plan

/-! ## Statements -/

namespace Command

/-- Whether a command rounds turns of the wrist to quarter turns. -/
def rounds : Command → Bool
  | move .. | turn _ | diagnose [] => true
  | diagnose (mode :: _) => mode = 1
  | lift _ | grip | release => false

/-- Whether a command sweeps the wrist through its range. -/
def sweeps : Command → Bool
  | diagnose (mode :: _) => mode = 0
  | diagnose [] | move .. | lift _ | grip | release | turn _ => false

end Command

namespace Station

open Plan

variable (st : Station) {P : Breakdown → Prop}

/-- A sweep gets beyond the end of the range. -/
def SweepEnds : Prop :=
  ∃ k < sweepBound,
    ¬ (· + Settings.sweepStride st.settings)^[k] st.workspace.wrist.low ≤ st.workspace.wrist.high

/-- The program sweeps the wrist only where a sweep ends. -/
def SweepsEnd (program : Program) : Prop :=
  ∀ statement ∈ program, statement.command.sweeps = true → st.SweepEnds

theorem breaksOnly_travel (arm : ArmState) (x y : Int32) : (st.travel arm x y).BreaksOnly P :=
  (breaksOnly_ofExcept _).bind fun _ => trivial

/-- A tour can only come to an overflow. -/
theorem breaksOnly_visit (h : P .overflow) (columns : List (Int32 × Int32)) :
    ∀ (arm : ArmState) (drift : Int32), (st.visit arm drift columns).BreaksOnly P := by
  induction columns with
  | nil => exact fun _ _ => trivial
  | cons column columns ih =>
    intro arm drift
    refine (st.breaksOnly_travel arm _ _).bind ?_
    rintro ⟨there, setting⟩
    refine (breaksOnly_warnOf setting).bind fun _ => ?_
    refine (breaksOnly_checked _ h).bind fun turned => ?_
    exact (breaksOnly_checked _ h).bind fun sum => ih there sum

/-- A sweep can only be without an end, whatever its range. -/
theorem breaksOnly_sweepTo (h : P .endless) (high step : Float) (n : Nat) :
    ∀ angle : Float, (sweepTo high step n angle).BreaksOnly P := by
  induction n with
  | zero => exact fun _ => h
  | succ n ih =>
    intro angle
    rw [sweepTo]
    split
    · exact ih (angle + step)
    · trivial

/-- One that gets beyond the end of its range does not break down. -/
theorem breaksOnly_sweepTo_of_beyond {high step : Float} (k : Nat) :
    ∀ {n : Nat} {angle : Float}, k < n → ¬ (· + step)^[k] angle ≤ high →
      (sweepTo high step n angle).BreaksOnly P := by
  induction k with
  | zero =>
    intro n angle hn hbeyond
    obtain ⟨n, rfl⟩ : ∃ m, n = m + 1 := ⟨n - 1, by omega⟩
    replace hbeyond : ¬ angle ≤ high := hbeyond
    rw [sweepTo, if_neg hbeyond]
    trivial
  | succ k ih =>
    intro n angle hn hbeyond
    obtain ⟨n, rfl⟩ : ∃ m, n = m + 1 := ⟨n - 1, by omega⟩
    rw [sweepTo]
    split
    · exact ih (Nat.lt_of_succ_lt_succ hn) hbeyond
    · trivial

theorem breaksOnly_sweep (h : ¬ st.SweepEnds → P .endless) (arm : ArmState) :
    (st.sweep arm).BreaksOnly P := by
  refine BreaksOnly.bind ?_ fun _ => trivial
  by_cases hends : st.SweepEnds
  · obtain ⟨k, hk, hbeyond⟩ := hends
    exact breaksOnly_sweepTo_of_beyond k hk hbeyond
  · exact breaksOnly_sweepTo (h hends) _ _ _ _

/-- A statement breaks down for an overflow only if it rounds turns, and for want of an end only if it
sweeps where sweeps do not end. -/
theorem breaksOnly_plan (arm : ArmState) {statement : Statement}
    (hrounds : statement.command.rounds = true → P .overflow)
    (hsweeps : statement.command.sweeps = true → ¬ st.SweepEnds → P .endless) :
    (st.plan arm statement).BreaksOnly P := by
  obtain ⟨line, command⟩ := statement
  refine (?_ : (st.commandPlan arm line command).BreaksOnly P)
  cases command with
  | move x y =>
    refine (st.breaksOnly_travel arm x y).bind ?_
    rintro ⟨there, setting⟩
    refine (breaksOnly_warnOf setting).bind fun _ => ?_
    exact (breaksOnly_checked _ (hrounds rfl)).bind fun _ => trivial
  | lift z => exact (breaksOnly_ofExcept _).bind fun _ => trivial
  | grip => trivial
  | release => trivial
  | turn degrees =>
    refine (breaksOnly_warnOf _).bind fun _ => ?_
    exact (breaksOnly_checked _ (hrounds rfl)).bind fun _ => trivial
  | diagnose arguments =>
    refine (?_ : (st.diagnose arm line arguments).BreaksOnly P)
    cases arguments with
    | nil => exact (breaksOnly_checked _ (hrounds rfl)).bind fun _ => trivial
    | cons mode more =>
      simp only [diagnose]
      split
      · next hmode => exact st.breaksOnly_sweep (hsweeps (decide_eq_true hmode)) arm
      · split
        · next hmode =>
          exact (st.breaksOnly_visit (hrounds (decide_eq_true hmode)) _ arm 0).bind fun _ => trivial
        · trivial

/-- Parking does not break down by itself. -/
theorem breaksOnly_park : st.park.BreaksOnly P :=
  (breaksOnly_ofExcept _).bind fun _ => trivial

/-- Nor does going home. -/
theorem breaksOnly_home (before : ArmState) : (st.home before).BreaksOnly P :=
  fun _ => st.breaksOnly_park

end Station

/-! ## Runs -/

namespace Scene

variable {st : Station} {d : Device σ} {program : Program} {s : Scene σ} {b : Breakdown}

/-- Effects do not break down. -/
theorem affect_ne_broken (e : Effect) (s : Scene σ) (b : Breakdown) :
    (affect e s).1 ≠ .broken b := by
  obtain ⟨rig, world⟩ := s
  cases world with
  | none => simp [affect]
  | some w =>
    simp only [affect]
    rcases e.apply w with ⟨_ | _ | _, _⟩ <;> simp

/-- A statement breaks down where its plan does. -/
theorem perform_eq_broken_iff {statement : Statement} : (perform st d statement s).1 = .broken b ↔
    ((st.plan s.rig.arm statement).exec d s.rig).1 = .broken b := by
  obtain ⟨rig, world⟩ := s
  simp only [perform]
  rcases (st.plan rig.arm statement).exec d rig with ⟨outcome, after⟩
  cases outcome with
  | value effect => exact iff_of_false (affect_ne_broken effect _ b) (by simp)
  | fault fault => simp
  | broken cause => simp

/-- Statements break down where one of their stages does. -/
theorem performAll_eq_broken_iff (program : Program) : ∀ (n : Nat) (s : Scene σ),
    (performAll st d n program s).1.outcome = .broken b ↔
      ∃ x ∈ stages st d program s, (perform st d x.statement x.before).1 = .broken b := by
  induction program with
  | nil => exact fun _ _ => iff_of_false (by simp [performAll]) (by simp [stages])
  | cons statement rest ih =>
    intro n s
    rw [performAll, stages]
    split
    · exact iff_of_false (by simp) (by simp)
    · rcases hperform : perform st d statement s with ⟨outcome, after⟩
      simp only [List.mem_cons, exists_eq_or_imp, hperform]
      cases outcome with
      | value u => simpa using ih (n + 1) after
      | fault fault => simp
      | broken cause => simp

/-- A stage that breaks down is the end of the run. -/
theorem run_eq_error {x : Stage σ} (hx : x ∈ stages st d program (s.begin program))
    (hbroken : (perform st d x.statement x.before).1 = .broken b) :
    (run st d program s).1 = .error b := by
  have hall := (performAll_eq_broken_iff program 0 (s.begin program)).mpr ⟨x, hx, hbroken⟩
  unfold run
  rcases hrun : performAll st d 0 program (s.begin program) with ⟨⟨outcome, n⟩, t⟩
  rw [hrun] at hall
  obtain rfl : outcome = .broken b := hall
  rfl

/-- If a run breaks down, then one of its stages does, or parking. -/
theorem broken_of_run (h : (run st d program s).1 = .error b) :
    (∃ x ∈ stages st d program (s.begin program),
      (perform st d x.statement x.before).1 = .broken b) ∨
    ∃ r, (st.park.exec d r).1 = .broken b := by
  have hall := @performAll_eq_broken_iff σ st d b program 0 (s.begin program)
  unfold run at h
  rcases hrun : performAll st d 0 program (s.begin program) with ⟨⟨outcome, n⟩, t⟩
  rw [hrun] at h hall
  cases outcome with
  | fault fault => exact absurd h (by simp [finish])
  | broken cause => exact .inl (hall.mp (congrArg Outcome.broken (Except.error.inj h)))
  | value all =>
    cases all with
    | false => exact absurd h (by simp [finish])
    | true =>
      refine .inr ⟨t.rig, ?_⟩
      simp only [conclude] at h
      rcases hpark : st.park.exec d t.rig with ⟨outcome, rig⟩
      rw [hpark] at h
      cases outcome with
      | value u => exact absurd h (by simp [finish])
      | fault fault => exact absurd h (by simp [finish])
      | broken cause => exact congrArg Outcome.broken (Except.error.inj h)

end Scene

end BlockArm
