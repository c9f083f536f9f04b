/-
# The arm when a script begins

A script begins once the background reset has ended, the challenge has been laid out, and the arm
has been brought home where it did not count as homed.  On the recording device, whose calls fail
from some call on but never crash, an arm that counts as homed is at home, unless a script has broken
down.  It was either brought home, which switches the pump off, or parked by a run that got through,
which leaves the pump alone.

* `Supervisor.begun?`: what a script begins with;
* `Session.sinceAll`: the statements of the runs completed since the arm was last brought home;
* `Session.Knows.after`: every request keeps what is known about the arm;
* `Session.atHome_of_begun?`: where the arm is when a script begins.
-/
import BlockArm.Proofs.Run.Endings
import BlockArm.Proofs.Run.Lockstep
import BlockArm.Proofs.Run.Recording
import BlockArm.Proofs.Supervisor.Homing

namespace BlockArm

variable {σ : Type}

namespace Supervisor

/-! ## What a script begins with -/

section Beginning

variable (st : Station) (d : Device σ)

/-- The world and the supervisor with which a script begins, if it does. -/
def begun? (challenge : Option Challenge) (s : Supervisor σ) :
    Option (Option World × Supervisor σ) :=
  match challenge.mapM World.ofChallenge with
  | .error _ => none
  | .ok world =>
    let s := (s.wait d).2
    if s.homed then some (world, s)
    else match s.home st d with
      | (.value (), s) => some (world, s)
      | (.fault _, _) | (.broken _, _) => none

/-- A script either begins and is run from there, or it is not run: because the challenge could not
be laid out, because the arm could not be brought home, or because that was broken off. -/
theorem attempt_cases (source : List Char) (challenge : Option Challenge) (s : Supervisor σ) :
    (∃ world t, s.begun? st d challenge = some (world, t) ∧
      (s.wait d).2.attempt st d source challenge = t.runHomed st d source world) ∨
    s.begun? st d challenge = none ∧
      ((∃ fault, (s.wait d).2.attempt st d source challenge =
          (.ok (.failed fault), (s.wait d).2)) ∨
        (∃ fault, (s.wait d).2.homed = false ∧ (s.wait d).2.attempt st d source challenge =
          (.ok (.failed fault), ((s.wait d).2.home st d).2) ∧
          ((s.wait d).2.home st d).1 = .fault fault) ∨
        ∃ b t, (s.wait d).2.attempt st d source challenge = (.error b, t)) := by
  unfold begun? attempt
  cases challenge.mapM World.ofChallenge with
  | error fault => exact .inr ⟨rfl, .inl ⟨fault, rfl⟩⟩
  | ok world =>
    simp only
    cases hhomed : (s.wait d).2.homed with
    | true => exact .inl ⟨world, (s.wait d).2, rfl, rfl⟩
    | false =>
      simp only [Bool.false_eq_true, if_false]
      rcases hhome : (s.wait d).2.home st d with ⟨outcome, t⟩
      cases outcome with
      | value u => exact .inl ⟨world, t, rfl, rfl⟩
      | fault fault => exact .inr ⟨rfl, .inr (.inl ⟨fault, trivial, rfl, rfl⟩)⟩
      | broken b => exact .inr ⟨rfl, .inr (.inr ⟨b, t, rfl⟩)⟩

variable {st d}

/-- A script that begins is run in its world, from the rig it begins with. -/
theorem runScript_of_begun? {challenge : Option Challenge} {s t : Supervisor σ}
    {world : Option World} (h : s.begun? st d challenge = some (world, t)) (source : List Char) :
    (s.runScript st d source challenge).1 =
      (Scene.runSource st d source { rig := t.rig, world }).1 := by
  rcases attempt_cases st d source challenge s with ⟨world', t', hbegun, hattempt⟩ | ⟨hnone, -⟩
  · rw [h] at hbegun
    obtain ⟨rfl, rfl⟩ := Prod.mk.inj (Option.some.inj hbegun)
    simp only [runScript, hattempt, runHomed]
    rcases Scene.runSource st d source { rig := t.rig, world } with ⟨b | report, scene⟩ <;> rfl
  · rw [h] at hnone
    simp at hnone

/-- After a run that is reported the arm counts as homed unless it was left away. -/
theorem homed_runHomed {s : Supervisor σ} {source : List Char} {world : Option World}
    {report : Report} (h : (s.runHomed st d source world).1 = .ok report) :
    (s.runHomed st d source world).2.homed = !report.leftAway := by
  unfold runHomed at h ⊢
  rcases hrun : Scene.runSource st d source { rig := s.rig, world } with ⟨b | told, scene⟩
  · rw [hrun] at h
    simp at h
  · rw [hrun] at h
    obtain rfl : told = report := Except.ok.inj h
    rw [Scene.leftAway_runSource (congrArg Prod.fst hrun), bne, Bool.not_not]

end Beginning

/-! ## Background resets -/

variable {d : Device σ}

/-- The steps that a background reset has taken do not change what it comes to. -/
theorem settle_advance (s : Supervisor σ) : (s.advance d).settle d = s.settle d := by
  unfold advance
  cases hreset : s.reset with
  | none => rfl
  | finished result => rfl
  | running plan =>
    have hexec := plan.exec_step d s.rig
    simp only
    rcases hstep : plan.step d s.rig with ⟨rest | outcome, rig⟩
    · rw [hstep] at hexec
      simp only [settle, hreset, ← hexec]
      rfl
    · rw [hstep] at hexec
      simp only [settle, hreset, ← hexec]
      rfl

/-- Waiting leaves what the background reset comes to, and forgets it. -/
theorem wait_snd (s : Supervisor σ) : (s.wait d).2 = { s.settle d with reset := .none } := by
  obtain ⟨rig, homed, reset⟩ := s
  cases reset <;> rfl

/-- An attempt leaves the background reset alone. -/
theorem reset_attempt (st : Station) (source : List Char) (challenge : Option Challenge)
    (s : Supervisor σ) : (s.attempt st d source challenge).2.reset = s.reset := by
  have hrun : ∀ (world : Option World) (t : Supervisor σ),
      (t.runHomed st d source world).2.reset = t.reset := by
    intro world t
    unfold runHomed
    split <;> rfl
  unfold attempt
  split
  · rfl
  · split
    · exact hrun _ s
    · have hreset : (s.home st d).2.reset = s.reset := rfl
      rcases hhome : s.home st d with ⟨outcome, t⟩
      rw [hhome] at hreset
      cases outcome with
      | value u => exact (hrun _ t).trans hreset
      | fault fault => exact hreset
      | broken b => exact hreset

/-! ## What is known about the arm -/

section Knowledge

variable {st : Station} {since : Program} {asks : Call → Recorder → Bool}

/-- An arm that counts as homed is parked, with the pump as some statements have left it since it
was switched off. -/
def Tells (st : Station) (since : Program) (s : Supervisor Recorder) : Prop :=
  s.homed = true →
    st.Parked (Command.pumpAfterAll false since) s.rig.device s.rig.arm

/-- An arm that is brought home is parked with the pump switched off, and one that could not be
brought home does not count as homed. -/
theorem parked_home (hhome : st.homePose = .ok st.homeArm.pose) (asks : Call → Recorder → Bool)
    (s : Supervisor Recorder) :
    ((s.home st (.attended asks)).1 = .value () ∧
      st.Parked false (s.home st (.attended asks)).2.rig.device
        (s.home st (.attended asks)).2.rig.arm) ∨
    ∃ fault, (s.home st (.attended asks)).1 = .fault fault ∧
      (s.home st (.attended asks)).2.homed = false := by
  have hparked := Station.parked_home hhome asks s.rig.arm s.rig
  unfold home Scene.home
  rcases hexec : (st.home s.rig.arm).exec (.attended asks) s.rig with ⟨outcome, rig⟩
  rw [hexec] at hparked
  rcases hparked with ⟨houtcome, hparked⟩ | ⟨fault, houtcome⟩
  · obtain rfl : outcome = .value () := houtcome
    exact .inl ⟨rfl, hparked⟩
  · obtain rfl : outcome = .fault fault := houtcome
    exact .inr ⟨fault, rfl, rfl⟩

/-- A run that is reported leaves an arm that counts as homed only if it was completed, and then the
statements of the script have joined the ones before it. -/
theorem tells_runHomed (hhome : st.homePose = .ok st.homeArm.pose) {s : Supervisor Recorder}
    (hs : st.Parked (Command.pumpAfterAll false since) s.rig.device s.rig.arm)
    {source : List Char} {world : Option World} {report : Report}
    (h : (s.runHomed st (.attended asks) source world).1 = .ok report) :
    (s.runHomed st (.attended asks) source world).2.Tells st (since ++ Script.program source) := by
  intro hhomed
  have haway := homed_runHomed h
  rw [hhomed] at haway
  unfold runHomed at h ⊢
  rcases hsource : Scene.runSource st (.attended asks) source { rig := s.rig, world } with
    ⟨b | report', scene⟩
  · rw [hsource] at h
    simp at h
  · rw [hsource] at h
    obtain rfl : report' = report := Except.ok.inj h
    have hparked := Scene.parked_runSource hhome (congrArg Prod.fst hsource) (by simpa using haway)
    rw [hsource, hs.pumpOn_eq] at hparked
    rw [Command.pumpAfterAll, List.foldl_append]
    exact hparked

end Knowledge

end Supervisor

namespace Session

/-! ## Requests that come to an end -/

section Requests

variable (st : Station) (d : Device σ)

/-- Whether a request comes to an end.  Only a script can go on for ever, or be broken off. -/
def answers (s : Session σ) : Request → Bool
  | .runScript source challenge => (s.supervisor.runScript st d source challenge).1.isOk
  | .runChallenge source catalog name progress =>
    (s.supervisor.runChallenge st d source catalog name progress).1.isOk
  | .advance | .startReset | .wait | .setStop _ => true

/-- Whether all requests come to an end, one after the other. -/
def answersAll : Session σ → List Request → Bool
  | _, [] => true
  | s, request :: requests =>
    s.answers st d request && answersAll (s.after st d request) requests

/-! ## The statements since the arm was brought home -/

/-- The statements of the runs completed since the arm was last brought home, after a reset that has
ended in some way. -/
def sinceReset (since : Program) : Option (Outcome Unit × Bool) → Program
  | some (.value (), _) => []
  | some (.fault _, _) | some (.broken _, _) | none => since

/-- These statements when a script begins: none if the arm is brought home before it. -/
def sinceBegun (s : Supervisor σ) (since : Program) : Program :=
  if (s.wait d).2.homed then sinceReset since (waitEnd d s) else []

/-- These statements after a script. -/
def sinceRun (source : List Char) (challenge : Option Challenge) (s : Supervisor σ)
    (since : Program) : Program :=
  match (s.runScript st d source challenge).1 with
  | .ok report =>
    if report.leftAway then sinceBegun d s since
    else sinceBegun d s since ++ Script.program source
  | .error _ => sinceBegun d s since

/-- These statements after a request. -/
def sinceAfter (s : Session σ) (since : Program) : Request → Program
  | .advance => sinceReset since (stepEnd d s.supervisor)
  | .wait => sinceReset since (waitEnd d s.supervisor)
  | .runScript source challenge => sinceRun st d source challenge s.supervisor since
  | .runChallenge source catalog name _ => match catalog.get name with
    | .error _ => since
    | .ok challenge => sinceRun st d source (some challenge) s.supervisor since
  | .startReset | .setStop _ => since

/-- These statements after requests in order. -/
def sinceAll : Session σ → Program → List Request → Program
  | _, since, [] => since
  | s, since, request :: requests =>
    sinceAll (s.after st d request) (s.sinceAfter st d since request) requests

end Requests

/-! ## What every request keeps -/

variable {st : Station} {since : Program} {asks : Call → Recorder → Bool}

/-- When the background reset has come to its end, an arm that counts as homed is parked, with the
pump as the runs completed since it was brought home have left it. -/
def Knows (st : Station) (asks : Call → Recorder → Bool) (since : Program)
    (s : Supervisor Recorder) : Prop :=
  (s.settle (.attended asks)).Tells st (sinceReset since (waitEnd (.attended asks) s))

/-- Without a reset under way this is known at once. -/
theorem knows_of_tells (asks : Call → Recorder → Bool) {s : Supervisor Recorder}
    (hreset : s.reset = .none) (h : s.Tells st since) : Knows st asks since s := by
  obtain ⟨rig, homed, reset⟩ := s
  obtain rfl : reset = .none := hreset
  exact h

theorem knows_start (asks : Call → Recorder → Bool) (rig : Rig Recorder) :
    Knows st asks [] (start rig).supervisor := by
  intro hhomed
  simp [start, Supervisor.settle] at hhomed

/-- A step of the background reset tells nothing that waiting for it would not tell. -/
theorem Knows.advance {s : Supervisor Recorder} (h : Knows st asks since s) :
    Knows st asks (sinceReset since (stepEnd (.attended asks) s)) (s.advance (.attended asks)) := by
  have hsince : sinceReset (sinceReset since (stepEnd (.attended asks) s))
      (waitEnd (.attended asks) (s.advance (.attended asks))) =
        sinceReset since (waitEnd (.attended asks) s) := by
    unfold stepEnd waitEnd Supervisor.advance
    cases hreset : s.reset with
    | none => simp [hreset, sinceReset]
    | finished result => simp [hreset, sinceReset]
    | running plan =>
      have hexec := plan.exec_step (.attended asks) s.rig
      simp only
      rcases hstep : plan.step (.attended asks) s.rig with ⟨rest | outcome, rig⟩
      · rw [hstep] at hexec
        simp only [sinceReset, ← hexec, Plan.Rest.exec]
      · rw [hstep] at hexec
        simp only [Supervisor.settled, ← hexec, Plan.Rest.exec]
        cases outcome <;> rfl
  unfold Knows
  rw [Supervisor.settle_advance, hsince]
  exact h

/-- Waiting makes known what was. -/
theorem Knows.tells_wait {s : Supervisor Recorder} (h : Knows st asks since s) :
    (s.wait (.attended asks)).2.Tells st (sinceReset since (waitEnd (.attended asks) s)) := by
  rw [Supervisor.wait_snd]
  exact h

/-- The arm comes home in the background, with the pump switched off, or does not count as homed. -/
theorem Knows.startReset (hhome : st.homePose = .ok st.homeArm.pose) {s : Supervisor Recorder}
    (h : Knows st asks since s) : Knows st asks since (s.startReset st).2 := by
  unfold Supervisor.startReset
  split
  · exact h
  · have hparked := Station.parked_home hhome asks s.rig.arm s.rig
    unfold Knows
    simp only [Supervisor.settle, waitEnd]
    rcases hexec : (st.home s.rig.arm).exec (.attended asks) s.rig with ⟨outcome, rig⟩
    rw [hexec] at hparked
    rcases hparked with ⟨houtcome, hparked⟩ | ⟨fault, houtcome⟩
    · obtain rfl : outcome = .value () := houtcome
      exact fun _ => hparked
    · obtain rfl : outcome = .fault fault := houtcome
      intro hhomed
      simp [Supervisor.settled, Supervisor.homedAfter] at hhomed

/-- When a script begins, the arm is parked. -/
theorem Knows.parked_of_begun? (hhome : st.homePose = .ok st.homeArm.pose)
    {s t : Supervisor Recorder} (h : Knows st asks since s) {challenge : Option Challenge}
    {world : Option World} (hbegun : s.begun? st (.attended asks) challenge = some (world, t)) :
    st.Parked (Command.pumpAfterAll false (sinceBegun (.attended asks) s since)) t.rig.device
      t.rig.arm := by
  unfold Supervisor.begun? at hbegun
  split at hbegun
  · simp at hbegun
  · simp only at hbegun
    cases hhomed : (s.wait (.attended asks)).2.homed with
    | true =>
      rw [hhomed, if_pos rfl] at hbegun
      obtain ⟨-, rfl⟩ := Prod.mk.inj (Option.some.inj hbegun)
      rw [sinceBegun, if_pos hhomed]
      exact h.tells_wait hhomed
    | false =>
      rw [hhomed, if_neg Bool.false_ne_true] at hbegun
      rw [sinceBegun, hhomed, if_neg Bool.false_ne_true]
      have hparked := Supervisor.parked_home hhome asks (s.wait (.attended asks)).2
      rcases hhome : (s.wait (.attended asks)).2.home st (.attended asks) with ⟨outcome, after⟩
      rw [hhome] at hbegun hparked
      rcases hparked with ⟨houtcome, hparked⟩ | ⟨fault, houtcome, -⟩
      · obtain rfl : outcome = .value () := houtcome
        obtain ⟨-, rfl⟩ := Prod.mk.inj (Option.some.inj hbegun)
        exact hparked
      · obtain rfl : outcome = .fault fault := houtcome
        simp at hbegun

/-- A script that comes to an end keeps what is known about the arm. -/
theorem Knows.runScript (hhome : st.homePose = .ok st.homeArm.pose) {s : Supervisor Recorder}
    (h : Knows st asks since s) (source : List Char) (challenge : Option Challenge)
    (hanswer : (s.runScript st (.attended asks) source challenge).1.isOk = true) :
    Knows st asks (sinceRun st (.attended asks) source challenge s since)
      (s.runScript st (.attended asks) source challenge).2 := by
  have hreset : ((s.wait (.attended asks)).2.attempt st (.attended asks) source
      challenge).2.reset = .none := by
    rw [Supervisor.reset_attempt, Supervisor.wait_snd]
  -- a run that left the arm away is followed by a reset
  have hafter : ∀ report after,
      (s.wait (.attended asks)).2.attempt st (.attended asks) source challenge =
        (.ok report, after) →
      after.Tells st (if report.leftAway then sinceBegun (.attended asks) s since
        else sinceBegun (.attended asks) s since ++ Script.program source) →
      Knows st asks (sinceRun st (.attended asks) source challenge s since)
        (s.runScript st (.attended asks) source challenge).2 := by
    intro report after hattempt htells
    rw [hattempt] at hreset
    have hknows := knows_of_tells asks hreset htells
    simp only [sinceRun, Supervisor.runScript, hattempt]
    cases hleft : report.leftAway with
    | true =>
      rw [hleft, if_pos rfl] at hknows
      exact hknows.startReset hhome
    | false =>
      rw [hleft, if_neg Bool.false_ne_true] at hknows
      exact hknows
  rcases Supervisor.attempt_cases st (.attended asks) source challenge s with
    ⟨world, t, hbegun, hattempt⟩ | ⟨-, hfailed⟩
  · have hparked := h.parked_of_begun? hhome hbegun
    rcases hrun : t.runHomed st (.attended asks) source world with ⟨b | report, after⟩
    · rw [hrun] at hattempt
      simp [Supervisor.runScript, hattempt, Except.isOk, Except.toBool] at hanswer
    · have hhomed := Supervisor.homed_runHomed (congrArg Prod.fst hrun)
      have htells := Supervisor.tells_runHomed hhome hparked (congrArg Prod.fst hrun)
      rw [hrun] at hattempt hhomed htells
      refine hafter report after hattempt fun hcounts => ?_
      rw [hhomed, Bool.not_eq_true'] at hcounts
      rw [hcounts, if_neg Bool.false_ne_true]
      exact htells (by rw [hhomed, hcounts]; rfl)
  · rcases hfailed with ⟨fault, hattempt⟩ | ⟨fault, -, hattempt, houtcome⟩ | ⟨b, t, hattempt⟩
    · refine hafter _ _ hattempt fun hcounts => ?_
      rw [show (Report.failed fault).leftAway = true from rfl, if_pos rfl, sinceBegun,
        if_pos hcounts]
      exact h.tells_wait hcounts
    · refine hafter _ _ hattempt fun hcounts => ?_
      rcases Supervisor.parked_home hhome asks (s.wait (.attended asks)).2 with
        ⟨hvalue, -⟩ | ⟨-, -, hhomed⟩
      · rw [hvalue] at houtcome
        simp at houtcome
      · rw [hhomed] at hcounts
        exact absurd hcounts Bool.false_ne_true
    · simp [Supervisor.runScript, hattempt, Except.isOk, Except.toBool] at hanswer

/-- A challenge is run as its script is. -/
theorem runChallenge_runScript (st : Station) (d : Device σ) (s : Supervisor σ)
    (source : List Char) {catalog : Catalog} {name : String} (progress : Progress)
    {challenge : Challenge} (hget : catalog.get name = .ok challenge) :
    (s.runChallenge st d source catalog name progress).1 =
        (s.runScript st d source (some challenge)).1 ∧
      (s.runChallenge st d source catalog name progress).2.2 =
        (s.runScript st d source (some challenge)).2 := by
  simp only [Supervisor.runChallenge, hget]
  rcases s.runScript st d source (some challenge) with ⟨b | report, after⟩ <;> exact ⟨rfl, rfl⟩

/-- A stop request does not reach a background reset. -/
theorem Knows.setStop {s : Supervisor Recorder} (h : Knows st asks since s) (stop : Bool) :
    Knows st asks since { s with rig := { s.rig with stop } } := by
  obtain ⟨rig, homed, reset⟩ := s
  cases reset with
  | none => exact h
  | finished result => exact h
  | running plan =>
    have hsame : ({ rig with stop } : Rig Recorder).device = rig.device := rfl
    obtain ⟨houtcome, hdevice, harm, -⟩ := plan.exec_congr (.attended asks) hsame rfl
    unfold Knows Supervisor.Tells at h ⊢
    simp only [Supervisor.settle, Supervisor.settled, waitEnd, houtcome, hdevice, harm] at h ⊢
    exact h

/-- Every request that comes to an end keeps what is known about the arm. -/
theorem Knows.after (hhome : st.homePose = .ok st.homeArm.pose) {s : Session Recorder}
    (h : Knows st asks since s.supervisor) (request : Request)
    (hanswer : s.answers st (.attended asks) request = true) :
    Knows st asks (s.sinceAfter st (.attended asks) since request)
      (s.after st (.attended asks) request).supervisor := by
  cases request with
  | advance => exact h.advance
  | startReset =>
    have hstart := h.startReset hhome
    unfold Session.after sinceAfter
    rcases hreset : s.supervisor.startReset st with ⟨_ | _, after⟩ <;>
      (rw [hreset] at hstart; exact hstart)
  | wait =>
    have hreset : (s.supervisor.wait (.attended asks)).2.reset = .none := by
      rw [Supervisor.wait_snd]
    exact knows_of_tells asks hreset h.tells_wait
  | runScript source challenge => exact h.runScript hhome source challenge hanswer
  | runChallenge source catalog name progress =>
    cases hget : catalog.get name with
    | error fault =>
      simp only [Session.after, sinceAfter, hget]
      exact h
    | ok challenge =>
      obtain ⟨hresult, hafter⟩ := runChallenge_runScript st (.attended asks) s.supervisor source
        progress hget
      simp only [Session.after, sinceAfter, hget, hafter]
      simp only [answers, hresult] at hanswer
      exact h.runScript hhome source (some challenge) hanswer
  | setStop stop => exact h.setStop stop

/-- So do several requests. -/
theorem Knows.afterAll (hhome : st.homePose = .ok st.homeArm.pose) (requests : List Request) :
    ∀ {since : Program} {s : Session Recorder}, Knows st asks since s.supervisor →
      s.answersAll st (.attended asks) requests = true →
      Knows st asks (s.sinceAll st (.attended asks) since requests)
        (s.afterAll st (.attended asks) requests).supervisor := by
  induction requests with
  | nil => exact fun h _ => h
  | cons request requests ih =>
    intro since s h hanswers
    rw [answersAll, Bool.and_eq_true] at hanswers
    exact ih (h.after hhome request hanswers.1) hanswers.2

/-! ## The arm is at home -/

/-- **Scripts begin at home.**  Whatever was asked of the supervisor of a recording device, whose
calls may fail from any of them on, and whenever somebody asked for a stop: when a script begins, the
arm is believed to be at the home cell and the home pose with a centred wrist, and the device is
there.  The requests before it were all answered: after a script that goes on for ever no other begins,
and one that breaks down is not answered either. -/
theorem atHome_of_begun? {workspace : Workspace} {settings : Settings}
    (h : Station.build workspace settings = .ok st) (asks : Call → Recorder → Bool)
    (rig : Rig Recorder) (requests : List Request)
    (hanswers : (start rig).answersAll st (.attended asks) requests = true) (source : List Char)
    {challenge : Option Challenge} {world : Option World} {t : Supervisor Recorder}
    (hbegun : ((start rig).afterAll st (.attended asks) requests).supervisor.begun? st
      (.attended asks) challenge = some (world, t)) :
    (((start rig).afterAll st (.attended asks) requests).supervisor.runScript st (.attended asks)
        source challenge).1 =
      (Scene.runSource st (.attended asks) source { rig := t.rig, world }).1 ∧
    t.rig.arm =
      { cell := st.settings.home
        pose := st.workspace.image st.settings.home
        wrist := st.workspace.wristCenter } ∧
    t.rig.device.pose = t.rig.arm.pose ∧ t.rig.device.wrist = t.rig.arm.wrist := by
  have hhome := (Station.homePose_of_build h).1
  have hparked :=
    ((knows_start asks rig).afterAll hhome requests hanswers).parked_of_begun? hhome hbegun
  refine ⟨Supervisor.runScript_of_begun? hbegun source, hparked.arm_eq, ?_, ?_⟩
  · rw [hparked.pose_eq, hparked.arm_eq]
  · rw [hparked.wrist_eq, hparked.arm_eq]

/-- The recording device that loses its connection after sixty calls. -/
def enduring : Rig Recorder := Station.standard.rig { failAfter := some 60 }

/-- Somebody asks for a stop whenever the arm goes up or down with the pump switched on. -/
def asksWhilePumping (c : Call) (r : Recorder) : Bool := c matches .moveZ _ && r.pumpOn

/-- Requests among which a run is completed, a reset is watched, and a run is stopped after its first
statement. -/
def errands : List Request :=
  [.runScript liftSource none, .startReset, .advance, .advance,
    .runScript "pumpe_an();hoehe(2)".toList none, .wait, .setStop false]

/-- After such requests the next script begins at home, while the connection still stands. -/
theorem atHome_enduring : ∃ t,
    ((start enduring).afterAll .standard (.attended asksWhilePumping) errands).supervisor.begun?
      .standard (.attended asksWhilePumping) none = some (none, t) ∧
    t.rig.device.pose = t.rig.arm.pose ∧ t.rig.device.wrist = t.rig.arm.wrist := by
  have hbegun : (((start enduring).afterAll .standard (.attended asksWhilePumping)
      errands).supervisor.begun? .standard (.attended asksWhilePumping) none).map
        (·.1.isSome) = some false := by
    decide +kernel
  obtain ⟨⟨world, t⟩, heq, hworld⟩ := Option.map_eq_some_iff.mp hbegun
  obtain rfl : world = none := by simpa using hworld
  have hanswers : (start enduring).answersAll .standard (.attended asksWhilePumping) errands =
      true := by
    decide +kernel
  exact ⟨t, heq, (atHome_of_begun? Station.build_standard asksWhilePumping enduring errands hanswers
    liftSource heq).2.2⟩

end Session

end BlockArm
