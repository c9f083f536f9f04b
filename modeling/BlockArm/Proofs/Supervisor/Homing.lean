/-
# What the supervisor knows after a reset

Whether the arm is known to be at home is written when a reset ends, and when a run ends.  A reset
that fails is remembered in this way alone: whoever runs the next script does not ask for its
result.  A reset that breaks off, however, leaves the flag as it was.

* `Session.after`, `Session.afterAll`: operations on a supervisor, in any order, and how the most
  recent background reset ended;
* `Session.Remembers`: what is known about the arm since then;
* `Session.resetsFirst_iff`: after a reset that failed, the next script has the arm reset first,
  unless the reset broke off while the arm was still counted as homed.
-/
import BlockArm.Proofs.Run.Resets
import BlockArm.Supervisor

namespace BlockArm

variable {σ : Type}

/-- Whether a plan was broken off. -/
def Outcome.isBroken {α : Type} : Outcome α → Bool
  | .broken _ => true
  | .value _ | .fault _ => false

/-! ## The calls of a script -/

namespace Supervisor

variable (st : Station) (d : Device σ) (source : List Char) (challenge : Option Challenge)

/-- Starting a reset makes no call yet. -/
theorem rig_startReset (s : Supervisor σ) : (s.startReset st).2.rig = s.rig := by
  unfold startReset
  split <;> rfl

/-- A script leaves the rig as its attempt leaves it, whether a reset follows or not. -/
theorem rig_runScript (s : Supervisor σ) : (s.runScript st d source challenge).2.rig =
    ((s.wait d).2.attempt st d source challenge).2.rig := by
  simp only [runScript]
  rcases (s.wait d).2.attempt st d source challenge with ⟨result, after⟩
  cases result with
  | error b => rfl
  | ok report =>
    simp only
    split
    · exact rig_startReset st after
    · rfl

/-- With the arm at home a script adds calls to the trace, but no reset. -/
theorem runHomed_extends (world : Option World) (s : Supervisor (Logged σ)) :
    s.rig.device.Extends Call.isReset (s.runHomed st d.logged source world).2.rig.device := by
  have hrun := Scene.runSource_extends st d source { rig := s.rig, world }
  unfold runHomed
  rcases hsource : Scene.runSource st d.logged source { rig := s.rig, world } with ⟨result, scene⟩
  rw [hsource] at hrun
  cases result with
  | ok report => exact hrun
  | error b => exact hrun

variable {challenge}

/-- Where the arm counts as homed, an attempt makes no reset. -/
theorem attempt_extends {world : Option World}
    (hworld : challenge.mapM World.ofChallenge = .ok world) {s : Supervisor (Logged σ)}
    (hhomed : s.homed = true) :
    s.rig.device.Extends Call.isReset (s.attempt st d.logged source challenge).2.rig.device := by
  simp only [attempt, hworld, hhomed, if_true]
  exact runHomed_extends st d source world s

/-- Where it does not, a reset comes before all other calls. -/
theorem attempt_resets {world : Option World}
    (hworld : challenge.mapM World.ofChallenge = .ok world) {s : Supervisor (Logged σ)}
    (hhomed : s.homed = false) :
    ∃ (later : Trace) (answer : Answer),
      (s.attempt st d.logged source challenge).2.rig.device.trace =
        later ++ (.reset, answer) :: s.rig.device.trace := by
  obtain ⟨later, answer, htrace, -⟩ := Scene.home_resets st d s.rig
  simp only [attempt, hworld, hhomed, Bool.false_eq_true, if_false, home]
  rcases hhome : Scene.home st d.logged s.rig with ⟨outcome, rig⟩
  rw [hhome] at htrace
  cases outcome with
  | fault fault => exact ⟨later, answer, htrace⟩
  | broken b => exact ⟨later, answer, htrace⟩
  | value u =>
    -- the arm came home, and the script only adds to the trace
    obtain ⟨later', htrace', -⟩ := runHomed_extends st d source world
      { s with rig, homed := homedAfter false (.value u) }
    refine ⟨later' ++ later, answer, ?_⟩
    refine htrace'.trans ?_
    rw [htrace, List.append_assoc]

variable (challenge)

/-- The first call of the next script, once the background reset has ended, is for a reset. -/
def ResetsFirst (s : Supervisor (Logged σ)) : Prop :=
  ∃ (later : Trace) (answer : Answer),
    (s.runScript st d.logged source challenge).2.rig.device.trace =
      later ++ (.reset, answer) :: (s.wait d.logged).2.rig.device.trace

variable {challenge}

/-- The next script has the arm reset first exactly where the arm does not count as homed. -/
theorem resetsFirst_iff_homed {world : Option World}
    (hworld : challenge.mapM World.ofChallenge = .ok world) (s : Supervisor (Logged σ)) :
    s.ResetsFirst st d source challenge ↔ (s.wait d.logged).2.homed = false := by
  unfold ResetsFirst
  rw [rig_runScript]
  constructor
  · rintro ⟨later, answer, htrace⟩
    refine Bool.eq_false_iff.mpr fun hhomed => ?_
    obtain ⟨later', htrace', hlater'⟩ := attempt_extends st d source hworld hhomed
    -- the reset would be among calls that are no resets
    rw [htrace', List.append_cons] at htrace
    obtain rfl := List.append_cancel_right htrace
    have := hlater' (.reset, answer) (List.mem_append_right later List.mem_cons_self)
    exact absurd this (Bool.eq_false_iff.mp · rfl)
  · intro hhomed
    exact attempt_resets st d source hworld hhomed

end Supervisor

/-! ## Operations in any order -/

/-- What can be asked of a supervisor, and what goes on beside it. -/
inductive Request where
  /-- The background reset takes one step. -/
  | advance
  | startReset
  | wait
  | runScript (source : List Char) (challenge : Option Challenge)
  | runChallenge (source : List Char) (catalog : Catalog) (name : String) (progress : Progress)
  /-- A stop is asked for, or no longer asked for. -/
  | setStop (stop : Bool)

/-- A supervisor, and how its most recent background reset ended. -/
structure Session (σ : Type) where
  supervisor : Supervisor σ
  /-- The outcome of the reset, and whether the arm counted as homed until then.  Nothing is told
  while a reset is under way, and once a script was run after it. -/
  lastReset : Option (Outcome Unit × Bool) := none

namespace Session

/-- A new supervisor, which has not brought the arm home yet. -/
def start (rig : Rig σ) : Session σ := { supervisor := { rig } }

/-- How the background reset ends with its next step, if it does. -/
def stepEnd (d : Device σ) (s : Supervisor σ) : Option (Outcome Unit × Bool) :=
  match s.reset with
  | .running plan => match (plan.step d s.rig).1 with
    | .over outcome => some (outcome, s.homed)
    | .plan _ => none
  | .none | .finished _ => none

/-- How the background reset ends when it is waited for, if one is under way. -/
def waitEnd (d : Device σ) (s : Supervisor σ) : Option (Outcome Unit × Bool) :=
  match s.reset with
  | .running plan => some ((plan.exec d s.rig).1, s.homed)
  | .none | .finished _ => none

variable (st : Station) (d : Device σ)

/-- The session after one request. -/
def after (s : Session σ) : Request → Session σ
  | .advance => ⟨s.supervisor.advance d, (stepEnd d s.supervisor).or s.lastReset⟩
  | .startReset => match s.supervisor.startReset st with
    | (true, supervisor) => ⟨supervisor, none⟩
    | (false, supervisor) => ⟨supervisor, s.lastReset⟩
  | .wait => ⟨(s.supervisor.wait d).2, (waitEnd d s.supervisor).or s.lastReset⟩
  | .runScript source challenge => ⟨(s.supervisor.runScript st d source challenge).2, none⟩
  | .runChallenge source catalog name progress => match catalog.get name with
    | .error _ => s
    | .ok _ => ⟨(s.supervisor.runChallenge st d source catalog name progress).2.2, none⟩
  | .setStop stop =>
    { s with supervisor := { s.supervisor with rig := { s.supervisor.rig with stop } } }

/-- The session after requests in order. -/
def afterAll (s : Session σ) (requests : List Request) : Session σ :=
  requests.foldl (after st d) s

/-! ## What is known after a reset -/

/-- What is known about the arm is what the most recent background reset has left. -/
def Remembers (s : Session σ) : Prop :=
  ∀ outcome known, s.lastReset = some (outcome, known) →
    s.supervisor.homed = Supervisor.homedAfter known outcome

theorem remembers_start (rig : Rig σ) : (start rig).Remembers := by
  intro outcome known h
  exact absurd h (by simp [start])

variable {st d} {s : Session σ}

theorem Remembers.advance (h : s.Remembers) : (s.after st d .advance).Remembers := by
  intro outcome known hlast
  simp only [after, stepEnd, Supervisor.advance] at hlast ⊢
  cases hreset : s.supervisor.reset with
  | none =>
    rw [hreset] at hlast
    exact h outcome known hlast
  | finished result =>
    rw [hreset] at hlast
    exact h outcome known hlast
  | running plan =>
    rw [hreset] at hlast
    simp only at hlast ⊢
    -- only the step that ends the reset writes the flag
    rcases hstep : plan.step d s.supervisor.rig with ⟨rest | outcome', rig⟩
    · rw [hstep] at hlast
      exact h outcome known hlast
    · rw [hstep] at hlast
      obtain ⟨rfl, rfl⟩ := Prod.mk.inj (Option.some.inj hlast)
      rfl

theorem Remembers.wait (h : s.Remembers) : (s.after st d .wait).Remembers := by
  intro outcome known hlast
  simp only [after, waitEnd, Supervisor.wait, Supervisor.settle] at hlast ⊢
  cases hreset : s.supervisor.reset with
  | none =>
    rw [hreset] at hlast
    simp only [Supervisor.collect, hreset]
    exact h outcome known hlast
  | finished result =>
    rw [hreset] at hlast
    simp only [Supervisor.collect, hreset]
    exact h outcome known hlast
  | running plan =>
    rw [hreset] at hlast
    obtain ⟨rfl, rfl⟩ := Prod.mk.inj (Option.some.inj hlast)
    rfl

theorem Remembers.startReset (h : s.Remembers) : (s.after st d .startReset).Remembers := by
  unfold Session.after Supervisor.startReset
  by_cases hresetting : s.supervisor.isResetting = true
  · rw [if_pos hresetting]
    exact h
  · rw [if_neg hresetting]
    intro outcome known hlast
    exact absurd hlast (by simp)

/-- Every request keeps what is remembered in step with the flag. -/
theorem Remembers.after (h : s.Remembers) (request : Request) :
    (s.after st d request).Remembers := by
  cases request with
  | advance => exact h.advance
  | startReset => exact h.startReset
  | wait => exact h.wait
  | runScript source challenge =>
    intro outcome known hlast
    exact absurd hlast (by simp [Session.after])
  | runChallenge source catalog name progress =>
    cases hget : catalog.get name with
    | error fault =>
      simp only [Session.after, hget]
      exact h
    | ok challenge =>
      intro outcome known hlast
      simp only [Session.after, hget] at hlast
      exact absurd hlast (by simp)
  | setStop stop => exact h

theorem Remembers.afterAll (requests : List Request) :
    ∀ {s : Session σ}, s.Remembers → (s.afterAll st d requests).Remembers := by
  induction requests with
  | nil => exact fun h => h
  | cons request requests ih => exact fun h => ih (h.after request)

/-- What a reset that failed leaves: the arm counts as homed only where the reset broke off and the
arm had counted as homed before. -/
theorem homedAfter_of_error (known : Bool) {outcome : Outcome Unit} {fault : Fault}
    (h : Supervisor.resultOf outcome = .error fault) :
    Supervisor.homedAfter known outcome = false ↔ ¬ (outcome.isBroken = true ∧ known = true) := by
  cases outcome with
  | value u => simp [Supervisor.resultOf] at h
  | fault fault' => simp [Supervisor.homedAfter, Outcome.isBroken]
  | broken b => simp [Supervisor.homedAfter, Outcome.isBroken]

/-- **Memory of failed resets.**  Whatever was asked of a supervisor: if its most recent background
reset ended in an error, then the arm does not count as homed, and the next script whose challenge
can be laid out has it reset before any other call, unless the reset broke off while the arm still
counted as homed. -/
theorem resetsFirst_iff (st : Station) (d : Device σ) (rig : Rig (Logged σ))
    (requests : List Request) (source : List Char) {challenge : Option Challenge}
    {world : Option World} (hworld : challenge.mapM World.ofChallenge = .ok world)
    {outcome : Outcome Unit} {known : Bool} {fault : Fault}
    (hlast : (((start rig).afterAll st d.logged requests).after st d.logged .wait).lastReset =
      some (outcome, known))
    (hfailed : Supervisor.resultOf outcome = .error fault) :
    ((((start rig).afterAll st d.logged requests).after st d.logged .wait).supervisor.homed =
        false ↔ ¬ (outcome.isBroken = true ∧ known = true)) ∧
    (((start rig).afterAll st d.logged requests).supervisor.ResetsFirst st d source challenge ↔
      ¬ (outcome.isBroken = true ∧ known = true)) := by
  have hremembers : ((start rig).afterAll st d.logged requests).Remembers :=
    (remembers_start rig).afterAll requests
  have hhomed := hremembers.wait outcome known hlast
  have hiff := homedAfter_of_error known hfailed
  rw [Supervisor.resetsFirst_iff_homed st d source hworld]
  exact ⟨hhomed ▸ hiff, hhomed ▸ hiff⟩

/-- A script of one statement. -/
def liftSource : List Char := "hoehe(1)".toList

/-- The recording device that loses its connection after nine calls: after one script, that is. -/
def fading : Rig (Logged Recorder) := Station.standard.rig ⟨{ failAfter := some 9 }, []⟩

/-- When the reset after the first script fails, the next script has the arm reset first. -/
theorem resetsFirst_fading : ∃ outcome known fault,
    (((start fading).afterAll .standard Device.recorder.logged
      [.runScript liftSource none, .startReset]).after .standard Device.recorder.logged
        .wait).lastReset = some (outcome, known) ∧
    Supervisor.resultOf outcome = .error fault ∧
    ((start fading).afterAll .standard Device.recorder.logged
      [.runScript liftSource none, .startReset]).supervisor.ResetsFirst .standard Device.recorder
        liftSource none := by
  have hlast : (((start fading).afterAll .standard Device.recorder.logged
      [.runScript liftSource none, .startReset]).after .standard Device.recorder.logged
        .wait).lastReset.map (fun last => ((Supervisor.resultOf last.1).isOk, last.1.isBroken)) =
      some (false, false) := by
    decide +kernel
  obtain ⟨⟨outcome, known⟩, heq, hpair⟩ := Option.map_eq_some_iff.mp hlast
  obtain ⟨hfailed, hbroken⟩ := Prod.mk.inj hpair
  cases outcome with
  | value u => exact absurd hfailed (by simp [Supervisor.resultOf, Except.isOk, Except.toBool])
  | broken b => exact absurd hbroken (by simp [Outcome.isBroken])
  | fault fault =>
    refine ⟨.fault fault, known, fault, heq, rfl, ?_⟩
    refine (resetsFirst_iff .standard Device.recorder fading _ liftSource rfl heq rfl).2.mpr ?_
    simp [Outcome.isBroken]

/-- A device whose first reset is done and whose later resets crash. -/
def shaky : Device Nat where
  perform
    | .reset, resets => (⟨if resets = 0 then .done else .crashed, false⟩, resets + 1)
    | .moveXY _ _, resets | .moveZ _, resets | .setWrist _, resets | .pump _, resets =>
      (⟨.done, false⟩, resets)
  pose _ := .ok .zero

/-- A reset that crashes while the arm counts as homed is forgotten: the next script has the arm
move without a reset. -/
theorem not_resetsFirst_shaky : ∃ outcome known fault,
    (((start (Station.standard.rig ⟨0, []⟩)).afterAll .standard shaky.logged
      [.startReset, .wait, .startReset]).after .standard shaky.logged .wait).lastReset =
        some (outcome, known) ∧
    Supervisor.resultOf outcome = .error fault ∧
    ¬ ((start (Station.standard.rig ⟨0, []⟩)).afterAll .standard shaky.logged
      [.startReset, .wait, .startReset]).supervisor.ResetsFirst .standard shaky liftSource
        none := by
  have hlast : (((start (Station.standard.rig ⟨0, []⟩)).afterAll .standard shaky.logged
      [.startReset, .wait, .startReset]).after .standard shaky.logged .wait).lastReset.map
        (fun last => (Supervisor.resultOf last.1).isOk) = some false := by
    decide +kernel
  have hhomed : (((start (Station.standard.rig ⟨0, []⟩)).afterAll .standard shaky.logged
      [.startReset, .wait, .startReset]).supervisor.wait shaky.logged).2.homed = true := by
    decide +kernel
  obtain ⟨⟨outcome, known⟩, heq, hfailed⟩ := Option.map_eq_some_iff.mp hlast
  obtain ⟨fault, hfault⟩ : ∃ fault, Supervisor.resultOf outcome = .error fault := by
    cases hresult : Supervisor.resultOf outcome with
    | error fault => exact ⟨fault, rfl⟩
    | ok u =>
      rw [hresult] at hfailed
      exact absurd hfailed.symm Bool.false_ne_true
  refine ⟨outcome, known, fault, heq, hfault, ?_⟩
  have hworld : (none : Option Challenge).mapM World.ofChallenge = .ok none := rfl
  rw [Supervisor.resetsFirst_iff_homed .standard shaky liftSource hworld, hhomed]
  decide

end Session

end BlockArm
