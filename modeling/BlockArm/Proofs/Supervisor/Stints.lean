/-
# One party at a time

Two parties use the arm: the drive home, in the background or before a script, and the script.  A
background reset may get ahead between any two operations, but no operation gets in its way: none is
started beside it, and a script waits for its end.  All that happened to the arm is therefore a
sequence of stints, each of which is one whole drive home or one whole script.

* `Stints`: stints that lead a device from one state to another;
* `Session.Tally`: the resets started and ended, and the scripts that had the arm brought home first;
* `Session.Orderly.after`: every request keeps the stints and the tally in order;
* `Session.stints_afterAll`: what the tally, the calls and the answers tell after any requests.
-/
import BlockArm.Proofs.Run.Watching
import BlockArm.Proofs.Supervisor.Independence

namespace BlockArm

variable {σ : Type} {st : Station} {d : Device σ}

/-! ## Stints -/

/-- Who has the arm for itself. -/
inductive Party where
  | homing
  | script
  deriving DecidableEq, Repr

/-- The calls made while a party had the arm for itself, the latest first. -/
structure Stint where
  party : Party
  calls : Trace

namespace Stint

/-- The calls of several stints.  The latest stint comes first. -/
def trace (stints : List Stint) : Trace := (stints.map calls).flatten

/-- The number of drives home. -/
def homings (stints : List Stint) : Nat := stints.countP fun stint => stint.party = .homing

@[simp] theorem homings_homing (calls : Trace) (stints : List Stint) :
    homings (⟨.homing, calls⟩ :: stints) = homings stints + 1 :=
  List.countP_cons_of_pos (decide_eq_true rfl)

@[simp] theorem homings_script (calls : Trace) (stints : List Stint) :
    homings (⟨.script, calls⟩ :: stints) = homings stints :=
  List.countP_cons_of_neg (by simp)

end Stint

/-- Whole drives home and whole scripts, one after the other, lead a device from a state to another
one.  The latest stint comes first. -/
inductive Stints (st : Station) (d : Device σ) (w : Logged σ) : List Stint → Logged σ → Prop
  | none : Stints st d w [] w
  | homing {stints : List Stint} {calls : Trace} (r : Rig (Logged σ))
      (before : Stints st d w stints r.device)
      (trace_eq : (Scene.home st d.logged r).2.device.trace = calls ++ r.device.trace) :
      Stints st d w (⟨.homing, calls⟩ :: stints) (Scene.home st d.logged r).2.device
  | script {stints : List Stint} {calls : Trace} (source : List Char) (s : Scene (Logged σ))
      (before : Stints st d w stints s.rig.device)
      (trace_eq : (Scene.runSource st d.logged source s).2.rig.device.trace =
        calls ++ s.rig.device.trace) :
      Stints st d w (⟨.script, calls⟩ :: stints) (Scene.runSource st d.logged source s).2.rig.device

namespace Stints

variable {w w' : Logged σ} {stints : List Stint}

/-- The trace grows by the calls of the stints. -/
theorem trace_eq (h : Stints st d w stints w') : w'.trace = Stint.trace stints ++ w.trace := by
  induction h with
  | none => rfl
  | homing r _ htrace ih =>
    rw [htrace, ih, ← List.append_assoc]
    rfl
  | script source s _ htrace ih =>
    rw [htrace, ih, ← List.append_assoc]
    rfl

/-- A drive home is one more stint. -/
theorem snoc_homing {r : Rig (Logged σ)} (h : Stints st d w stints r.device) : ∃ calls,
    Stints st d w (⟨.homing, calls⟩ :: stints) (Scene.home st d.logged r).2.device := by
  obtain ⟨later, answer, htrace, -⟩ := Scene.home_resets st d r
  exact ⟨later ++ [(.reset, answer)], .homing r h (by rw [htrace, List.append_cons])⟩

/-- So is a script. -/
theorem snoc_script {s : Scene (Logged σ)} (h : Stints st d w stints s.rig.device)
    (source : List Char) : ∃ calls, Stints st d w (⟨.script, calls⟩ :: stints)
      (Scene.runSource st d.logged source s).2.rig.device := by
  obtain ⟨later, htrace, -⟩ := Scene.runSource_extends st d source s
  exact ⟨later, .script source s h htrace⟩

/-- Each drive home resets the arm once, and no script does. -/
theorem countP_reset (h : Stints st d w stints w') :
    w'.trace.countP (fun entry => entry.1.isReset) =
      Stint.homings stints + w.trace.countP fun entry => entry.1.isReset := by
  have hnone : ∀ later : Trace, (∀ entry ∈ later, entry.1.isReset = false) →
      later.countP (fun entry => entry.1.isReset) = 0 := by
    intro later hlater
    rw [List.countP_eq_zero]
    intro entry hentry
    simp [hlater entry hentry]
  induction h with
  | none => simp [Stint.homings]
  | homing r _ _ ih =>
    obtain ⟨later, answer, htrace, hlater⟩ := Scene.home_resets st d r
    rw [htrace, List.countP_append, hnone later hlater, List.countP_cons_of_pos rfl, ih,
      Stint.homings_homing]
    omega
  | script source s _ _ ih =>
    obtain ⟨later, htrace, hlater⟩ := Scene.runSource_extends st d source s
    rw [htrace, List.countP_append, hnone later hlater, ih, Stint.homings_script, Nat.zero_add]

end Stints

/-! ## The background reset and its calls -/

namespace Supervisor

/-- A step of a plan only adds to the trace. -/
theorem suffix_step {α : Type} (p : Plan α) (r : Rig (Logged σ)) :
    r.device.trace <:+ (p.step d.logged r).2.device.trace := by
  cases p with
  | call c next => exact List.suffix_cons _ _
  | note level text next => simp only [Plan.step, Rig.device_say, List.suffix_refl]
  | warn warning next => simp only [Plan.step, Rig.device_warn, List.suffix_refl]
  | _ => exact List.suffix_refl _

/-- So does a step of the background reset. -/
theorem suffix_advance (s : Supervisor (Logged σ)) :
    s.rig.device.trace <:+ (s.advance d.logged).rig.device.trace := by
  obtain ⟨rig, homed, reset⟩ := s
  cases reset with
  | none => exact List.suffix_refl _
  | finished result => exact List.suffix_refl _
  | running plan =>
    have hstep := suffix_step (d := d) plan rig
    simp only [advance]
    rcases hplan : plan.step d.logged rig with ⟨rest | outcome, after⟩ <;>
      (rw [hplan] at hstep; exact hstep)

/-- So do all its steps. -/
theorem suffix_settle (s : Supervisor (Logged σ)) :
    s.rig.device.trace <:+ (s.settle d.logged).rig.device.trace := by
  obtain ⟨rig, homed, reset⟩ := s
  cases reset with
  | none => exact List.suffix_refl _
  | finished result => exact List.suffix_refl _
  | running plan =>
    have hmeets := Plan.ensures_exec (r := rig)
      (plan.ensures_suffix d rig.arm (List.suffix_refl rig.device.trace))
    simp only [settle]
    rcases hexec : plan.exec d.logged rig with ⟨outcome, after⟩
    rw [hexec] at hmeets
    cases outcome <;> exact hmeets

/-- Where no reset is under way there is nothing to settle. -/
theorem rig_settle {s : Supervisor σ} (h : s.isResetting = false) : (s.settle d).rig = s.rig := by
  obtain ⟨rig, homed, reset⟩ := s
  cases reset with
  | none => rfl
  | finished result => rfl
  | running plan => exact absurd h (by simp [isResetting])

/-- The steps that a background reset has taken do not change what is waited for. -/
theorem wait_advance (s : Supervisor σ) : (s.advance d).wait d = s.wait d := by
  unfold wait
  rw [settle_advance]

/-- No reset is under way once it was waited for. -/
theorem isResetting_wait (s : Supervisor σ) : (s.wait d).2.isResetting = false := by
  rw [wait_snd]
  rfl

/-- There is a result to wait for after a script just where the arm was left away from home. -/
theorem isSome_wait_runScript {source : List Char} {challenge : Option Challenge}
    {s : Supervisor σ} {report : Report}
    (h : (s.runScript st d source challenge).1 = .ok report) :
    ((s.runScript st d source challenge).2.wait d).1.isSome = report.leftAway := by
  have hreset : ((s.wait d).2.attempt st d source challenge).2.reset = .none := by
    rw [reset_attempt, wait_snd]
  rcases hattempt : (s.wait d).2.attempt st d source challenge with ⟨b | report', after⟩
  · simp [runScript, hattempt] at h
  · rw [hattempt] at hreset
    replace hreset : after.reset = .none := hreset
    simp only [runScript, hattempt] at h ⊢
    obtain rfl : report' = report := Except.ok.inj h
    cases report'.leftAway with
    | true => simp [startReset, isResetting, hreset, wait, settle, settled, collect]
    | false => simp [wait, settle, collect, hreset]

end Supervisor

/-! ## The tally of a session -/

namespace Session

section Tally

variable (st : Station) (d : Device σ)

/-- What is counted along a session. -/
structure Tally where
  /-- The background resets that were started, the ones that follow a script included. -/
  started : Nat := 0
  /-- The background resets that have come to their end. -/
  ended : Nat := 0
  /-- The scripts that found the arm away from home, so far as is known. -/
  astray : Nat := 0

/-- Whether a script finds the arm away from home.  One whose challenge cannot be laid out does not
look. -/
def findsAstray (challenge : Option Challenge) (s : Supervisor σ) : Bool :=
  match challenge.mapM World.ofChallenge with
  | .error _ => false
  | .ok _ => !(s.wait d).2.homed

/-- Whether a background reset is started after a script. -/
def startsAfter (source : List Char) (challenge : Option Challenge) (s : Supervisor σ) : Bool :=
  match (s.wait d).2.attempt st d source challenge with
  | (.ok report, s) => report.leftAway && (s.startReset st).1
  | (.error _, _) => false

/-- The tally after a script, which waits for the background reset. -/
def tallyScript (source : List Char) (challenge : Option Challenge) (s : Supervisor σ)
    (t : Tally) : Tally where
  started := t.started + (startsAfter st d source challenge s).toNat
  ended := t.ended + (waitEnd d s).isSome.toNat
  astray := t.astray + (findsAstray d challenge s).toNat

/-- The tally after a request. -/
def tallyAfter (s : Supervisor σ) (t : Tally) : Request → Tally
  | .advance => { t with ended := t.ended + (stepEnd d s).isSome.toNat }
  | .startReset => { t with started := t.started + (s.startReset st).1.toNat }
  | .wait => { t with ended := t.ended + (waitEnd d s).isSome.toNat }
  | .runScript source challenge => tallyScript st d source challenge s t
  | .runChallenge source catalog name _ => match catalog.get name with
    | .error _ => t
    | .ok challenge => tallyScript st d source (some challenge) s t
  | .setStop _ => t

/-- The tally after requests in order. -/
def tallyAll : Session σ → Tally → List Request → Tally
  | _, t, [] => t
  | s, t, request :: requests =>
    tallyAll (s.after st d request) (tallyAfter st d s.supervisor t request) requests

end Tally

/-- How a reset ends can be waited for just while it is under way. -/
theorem isSome_waitEnd (s : Supervisor σ) : (waitEnd d s).isSome = s.isResetting := by
  obtain ⟨rig, homed, reset⟩ := s
  cases reset <;> rfl

/-- A reset under way comes to its end with its next step, or goes on. -/
theorem isResetting_advance (s : Supervisor σ) :
    s.isResetting.toNat = (stepEnd d s).isSome.toNat + (s.advance d).isResetting.toNat := by
  obtain ⟨rig, homed, reset⟩ := s
  cases reset with
  | none => rfl
  | finished result => rfl
  | running plan =>
    simp only [stepEnd, Supervisor.advance]
    rcases plan.step d rig with ⟨rest | outcome, after⟩ <;> rfl

/-! ## What every request keeps -/

/-- The tally is right, and the arm was used in stints.  The stint of a reset under way comes to its
end when the reset does, and the stints before it are over. -/
structure Orderly (st : Station) (d : Device σ) (w : Logged σ) (s : Supervisor (Logged σ))
    (t : Tally) (stints : List Stint) : Prop where
  settled : Stints st d w stints (s.settle d.logged).rig.device
  current : s.isResetting = true → ∃ calls earlier, stints = ⟨.homing, calls⟩ :: earlier ∧
    Stint.trace earlier ++ w.trace <:+ s.rig.device.trace
  homings_eq : Stint.homings stints = t.started + t.astray
  started_eq : t.started = t.ended + s.isResetting.toNat

variable {w : Logged σ} {s : Supervisor (Logged σ)} {t : Tally} {stints : List Stint}

/-- Without a reset under way nothing is outstanding. -/
theorem orderly_of_idle (hidle : s.isResetting = false) (h : Stints st d w stints s.rig.device)
    (hhomings : Stint.homings stints = t.started + t.astray) (hstarted : t.started = t.ended) :
    Orderly st d w s t stints where
  settled := by rw [Supervisor.rig_settle hidle]; exact h
  current hresetting := absurd (hidle.symm.trans hresetting) Bool.false_ne_true
  homings_eq := hhomings
  started_eq := by rw [hstarted, hidle]; rfl

/-- A step of the background reset belongs to its stint. -/
theorem Orderly.advance (h : Orderly st d w s t stints) : Orderly st d w (s.advance d.logged)
    { t with ended := t.ended + (stepEnd d.logged s).isSome.toNat } stints := by
  have hends := isResetting_advance (d := d.logged) s
  refine ⟨?_, ?_, h.homings_eq, ?_⟩
  · rw [Supervisor.settle_advance]
    exact h.settled
  · intro hresetting
    have hbefore : s.isResetting = true := by
      rw [hresetting] at hends
      cases hs : s.isResetting with
      | true => rfl
      | false => simp [hs] at hends
    obtain ⟨calls, earlier, hstints, hsuffix⟩ := h.current hbefore
    exact ⟨calls, earlier, hstints, hsuffix.trans (Supervisor.suffix_advance s)⟩
  · have hstarted := h.started_eq
    simp only
    omega

/-- Waiting ends the stint of the background reset. -/
theorem Orderly.wait (h : Orderly st d w s t stints) : Orderly st d w (s.wait d.logged).2
    { t with ended := t.ended + (waitEnd d.logged s).isSome.toNat } stints := by
  refine orderly_of_idle (Supervisor.isResetting_wait s) ?_ h.homings_eq ?_
  · rw [Supervisor.wait_snd]
    exact h.settled
  · simp only [isSome_waitEnd]
    exact h.started_eq

/-- A reset that is started has a stint of its own. -/
theorem Orderly.startReset (h : Orderly st d w s t stints) : ∃ stints',
    Orderly st d w (s.startReset st).2
      { t with started := t.started + (s.startReset st).1.toNat } stints' := by
  unfold Supervisor.startReset
  cases hresetting : s.isResetting with
  | true => exact ⟨stints, h⟩
  | false =>
    have hsettled := h.settled
    rw [Supervisor.rig_settle hresetting] at hsettled
    have hstarted := h.started_eq
    have hhomings := h.homings_eq
    obtain ⟨calls, hhoming⟩ := hsettled.snoc_homing
    refine ⟨⟨.homing, calls⟩ :: stints, hhoming, ?_, ?_, ?_⟩
    · intro _
      refine ⟨calls, stints, rfl, ?_⟩
      rw [← hsettled.trace_eq]
      exact List.suffix_refl _
    · rw [Stint.homings_homing, hhomings]
      exact Nat.add_right_comm _ _ _
    · rw [hresetting] at hstarted
      simp only [hstarted, Bool.toNat_false, Nat.add_zero]
      rfl

/-- An attempt consists of a stint of the script, after one for a drive home where it found the arm
away from home. -/
theorem stints_attempt (h : Stints st d w stints s.rig.device) (source : List Char)
    (challenge : Option Challenge) : ∃ stints',
    Stints st d w stints' (s.attempt st d.logged source challenge).2.rig.device ∧
      Stint.homings stints' = Stint.homings stints +
        (match challenge.mapM World.ofChallenge with
          | .error _ => false
          | .ok _ => !s.homed).toNat := by
  have hscript : ∀ {stints} (world : Option World) (s : Supervisor (Logged σ)),
      Stints st d w stints s.rig.device → ∃ stints',
        Stints st d w stints' (s.runHomed st d.logged source world).2.rig.device ∧
          Stint.homings stints' = Stint.homings stints := by
    intro stints world s h
    obtain ⟨calls, hcalls⟩ := h.snoc_script (s := { rig := s.rig, world }) source
    refine ⟨_, ?_, Stint.homings_script calls stints⟩
    rw [Supervisor.rig_runHomed]
    exact hcalls
  unfold Supervisor.attempt
  cases challenge.mapM World.ofChallenge with
  | error fault => exact ⟨stints, h, rfl⟩
  | ok world =>
    simp only
    cases hhomed : s.homed with
    | true =>
      obtain ⟨stints', hstints', hhomings⟩ := hscript world s h
      exact ⟨stints', hstints', hhomings⟩
    | false =>
      obtain ⟨calls, hhoming⟩ := h.snoc_homing
      have hone := Stint.homings_homing calls stints
      simp only [Bool.false_eq_true, if_false, Supervisor.home]
      rcases hhome : Scene.home st d.logged s.rig with ⟨outcome, rig⟩
      rw [hhome] at hhoming
      cases outcome with
      | fault fault => exact ⟨_, hhoming, hone⟩
      | broken b => exact ⟨_, hhoming, hone⟩
      | value u =>
        obtain ⟨stints', hstints', hhomings⟩ :=
          hscript world { s with rig, homed := Supervisor.homedAfter false (.value u) } hhoming
        exact ⟨stints', hstints', hhomings.trans hone⟩

/-- A script waits for the stint under way, has its own, and may be followed by one more. -/
theorem Orderly.runScript (h : Orderly st d w s t stints) (source : List Char)
    (challenge : Option Challenge) : ∃ stints',
    Orderly st d w (s.runScript st d.logged source challenge).2
      (tallyScript st d.logged source challenge s t) stints' := by
  have hwait := h.wait
  have hidle := Supervisor.isResetting_wait (d := d.logged) s
  have hsettled := hwait.settled
  rw [Supervisor.rig_settle hidle] at hsettled
  have hstarted := hwait.started_eq
  rw [hidle] at hstarted
  have hhomings := hwait.homings_eq
  obtain ⟨stints', hstints', hmore⟩ := stints_attempt hsettled source challenge
  have hreset : ((s.wait d.logged).2.attempt st d.logged source challenge).2.isResetting =
      false := by
    unfold Supervisor.isResetting
    rw [Supervisor.reset_attempt, Supervisor.wait_snd]
  -- the supervisor after the attempt, before a reset may follow
  have hattempted : Orderly st d w ((s.wait d.logged).2.attempt st d.logged source challenge).2
      { started := t.started, ended := t.ended + (waitEnd d.logged s).isSome.toNat
        astray := t.astray + (findsAstray d.logged challenge s).toNat } stints' := by
    refine orderly_of_idle hreset hstints' ?_ hstarted
    rw [hmore, hhomings]
    exact Nat.add_assoc _ _ _
  rcases hattempt : (s.wait d.logged).2.attempt st d.logged source challenge with
    ⟨b | report, after⟩
  · rw [hattempt] at hattempted
    simp only [Supervisor.runScript, tallyScript, startsAfter, hattempt]
    exact ⟨stints', hattempted⟩
  · rw [hattempt] at hattempted
    simp only [Supervisor.runScript, tallyScript, startsAfter, hattempt]
    cases report.leftAway with
    | true =>
      simp only [if_true, Bool.true_and]
      exact hattempted.startReset
    | false =>
      simp only [Bool.false_eq_true, if_false, Bool.false_and]
      exact ⟨stints', hattempted⟩

/-- A stop request does not reach a background reset. -/
theorem Orderly.setStop (h : Orderly st d w s t stints) (stop : Bool) :
    Orderly st d w { s with rig := { s.rig with stop } } t stints := by
  refine ⟨?_, h.current, h.homings_eq, h.started_eq⟩
  have hsettled := h.settled
  obtain ⟨rig, homed, reset⟩ := s
  cases reset with
  | none => exact hsettled
  | finished result => exact hsettled
  | running plan =>
    have hsame : ({ rig with stop } : Rig (Logged σ)).device = rig.device := rfl
    obtain ⟨-, hdevice, -⟩ := plan.exec_congr d.logged hsame rfl
    simp only [Supervisor.settle, Supervisor.settled] at hsettled ⊢
    rw [hdevice]
    exact hsettled

/-- Every request keeps the stints and the tally in order. -/
theorem Orderly.after {s : Session (Logged σ)} (h : Orderly st d w s.supervisor t stints)
    (request : Request) : ∃ stints', Orderly st d w (s.after st d.logged request).supervisor
      (tallyAfter st d.logged s.supervisor t request) stints' := by
  cases request with
  | advance => exact ⟨stints, h.advance⟩
  | startReset =>
    have hstart := h.startReset
    unfold Session.after tallyAfter
    rcases hreset : s.supervisor.startReset st with ⟨_ | _, after⟩ <;>
      (rw [hreset] at hstart; exact hstart)
  | wait => exact ⟨stints, h.wait⟩
  | runScript source challenge => exact h.runScript source challenge
  | runChallenge source catalog name progress =>
    cases hget : catalog.get name with
    | error fault =>
      simp only [Session.after, tallyAfter, hget]
      exact ⟨stints, h⟩
    | ok challenge =>
      simp only [Session.after, tallyAfter, hget,
        (runChallenge_runScript st d.logged s.supervisor source progress hget).2]
      exact h.runScript source (some challenge)
  | setStop stop => exact ⟨stints, h.setStop stop⟩

/-- So do several requests. -/
theorem Orderly.afterAll (requests : List Request) :
    ∀ {s : Session (Logged σ)} {t : Tally} {stints : List Stint},
      Orderly st d w s.supervisor t stints → ∃ stints',
        Orderly st d w (s.afterAll st d.logged requests).supervisor
          (tallyAll st d.logged s t requests) stints' := by
  induction requests with
  | nil => exact fun {_ _ stints} h => ⟨stints, h⟩
  | cons request requests ih =>
    intro s t stints h
    obtain ⟨stints', h'⟩ := h.after request
    exact ih h'

/-! ## What is told after any requests -/

/-- The supervisor of a rig after requests, with the calls that were made. -/
def served (st : Station) (d : Device σ) (rig : Rig σ) (requests : List Request) :
    Supervisor (Logged σ) :=
  ((start rig.logged).afterAll st d.logged requests).supervisor

/-- The tally after requests to the supervisor of a rig. -/
def tallied (st : Station) (d : Device σ) (rig : Rig σ) (requests : List Request) : Tally :=
  tallyAll st d.logged (start rig.logged) {} requests

/-- **One party at a time.**  Whatever was asked of a supervisor, and however far the background
reset had come each time:

* a reset is refused just while one that was started has not ended, and then nothing is changed;
* the calls are those of whole drives home and whole scripts, one after the other, except that a
  reset under way has made only the first calls of the latest drive home;
* the drives home are the resets started and the scripts that found the arm away from home, and
  unless a reset is under way each of these has reset the arm once, and nothing else has;
* after a script there is a result to wait for just where the script has failed or was aborted, for
  however long the background reset has gone on. -/
theorem stints_afterAll (st : Station) (d : Device σ) (rig : Rig σ) (requests : List Request) :
    (((served st d rig requests).startReset st).1 = false ↔
        (tallied st d rig requests).ended < (tallied st d rig requests).started) ∧
    (((served st d rig requests).startReset st).1 = false →
        ((served st d rig requests).startReset st).2 = served st d rig requests) ∧
    (∃ stints,
      Stints st d ⟨rig.device, []⟩ stints ((served st d rig requests).settle d.logged).rig.device ∧
      Stint.homings stints =
        (tallied st d rig requests).started + (tallied st d rig requests).astray ∧
      if (served st d rig requests).isResetting then
        ∃ calls made earlier, stints = ⟨.homing, calls⟩ :: earlier ∧ made <:+ calls ∧
          (served st d rig requests).rig.device.trace = made ++ Stint.trace earlier
      else (served st d rig requests).rig.device.trace = Stint.trace stints) ∧
    ((served st d rig requests).isResetting = false →
      (served st d rig requests).rig.device.trace.countP (fun entry => entry.1.isReset) =
        (tallied st d rig requests).started + (tallied st d rig requests).astray) ∧
    ∀ source challenge report,
      ((served st d rig requests).runScript st d.logged source challenge).1 = .ok report → ∀ k,
        ((((Supervisor.advance d.logged)^[k] ((served st d rig requests).runScript st d.logged
            source challenge).2).wait d.logged).1.isSome = true ↔
          report.state = .failed ∨ report.state = .aborted) := by
  have hstart : Orderly st d ⟨rig.device, []⟩ (start rig.logged).supervisor {} [] :=
    orderly_of_idle rfl .none rfl rfl
  obtain ⟨stints, horderly⟩ := hstart.afterAll requests
  change Orderly st d ⟨rig.device, []⟩ (served st d rig requests) (tallied st d rig requests)
    stints at horderly
  generalize served st d rig requests = s at *
  generalize tallied st d rig requests = t at *
  have hstarted := horderly.started_eq
  have htrace := horderly.settled.trace_eq
  rw [List.append_nil] at htrace
  refine ⟨?_, ?_, ⟨stints, horderly.settled, horderly.homings_eq, ?_⟩, ?_, ?_⟩
  · unfold Supervisor.startReset
    cases hresetting : s.isResetting with
    | true => simp [hstarted, hresetting]
    | false => simp [hstarted, hresetting]
  · unfold Supervisor.startReset
    cases s.isResetting with
    | true => exact fun _ => rfl
    | false => exact fun h => absurd h.symm Bool.false_ne_true
  · cases hresetting : s.isResetting with
    | false =>
      rw [Supervisor.rig_settle hresetting] at htrace
      exact htrace
    | true =>
      obtain ⟨calls, earlier, hstints, made, hmade⟩ := horderly.current hresetting
      rw [List.append_nil] at hmade
      refine ⟨calls, made, earlier, hstints, ?_, hmade.symm⟩
      -- what is made so far and what will be made have the same stints before them
      have hsuffix := Supervisor.suffix_settle (d := d) s
      rw [htrace, hstints, ← hmade] at hsuffix
      exact (List.suffix_append_self_iff).mp hsuffix
  · intro hidle
    have hcount := horderly.settled.countP_reset
    rw [Supervisor.rig_settle hidle, horderly.homings_eq] at hcount
    exact hcount
  · intro source challenge report hreport k
    have hwait : ((Supervisor.advance d.logged)^[k] (s.runScript st d.logged source
        challenge).2).wait d.logged = (s.runScript st d.logged source challenge).2.wait d.logged := by
      induction k with
      | zero => rfl
      | succ k ih => rw [Function.iterate_succ_apply', Supervisor.wait_advance, ih]
    rw [hwait, Supervisor.isSome_wait_runScript hreport]
    simp [Report.leftAway]

end Session

end BlockArm
