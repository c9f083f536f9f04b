/-
# Credit for solved challenges

In a course challenges are tried, one after the other, and other requests reach the supervisor in
between.  A challenge is credited just when a trial of it has been reported as a success, and that
is reported only of a run that was completed in a fresh world of the challenge, with its goal
reached.

* `Progress.isComplete_iff`: when a session is complete;
* `Trial`, `Course`: what was tried, and what came of it;
* `Trial.earned_of_isSuccess`: what a success stands for;
* `Trial.isSolved_call`: what a trial adds to the progress;
* `Course.Fair`: what every turn of a course keeps;
* `Course.credit`: successes are credited, and nothing else is.
-/
import BlockArm.Proofs.Run.Reports
import BlockArm.Proofs.Supervisor.Beginning
import BlockArm.Proofs.World.Matching
import Mathlib.Data.Finset.Card

namespace BlockArm

variable {σ : Type}

/-! ## Catalog and progress -/

/-- A challenge that the catalog does not name is not found. -/
theorem Catalog.get_of_notMem {k : Catalog} {name : String} (h : name ∉ k.names) :
    k.get name = .error (.unknownChallenge name) := by
  have hfind : k.challenges.find? (·.name == name) = none := by
    refine List.find?_eq_none.mpr fun c hc hname => h ?_
    rw [← beq_iff_eq.mp hname]
    exact List.mem_map_of_mem hc
  simp only [get, hfind]

namespace Progress

@[simp] theorem isSolved_record (p : Progress) (name other : String) :
    (p.record name).isSolved other = true ↔ other = name ∨ p.isSolved other = true := by
  rw [isSolved, record, Std.ExtTreeSet.contains_insert, Bool.or_eq_true, beq_iff_eq,
    Std.compare_eq_iff_eq, eq_comm, isSolved]

/-- A session is complete when there are as many different solved challenges as it requires. -/
theorem isComplete_iff (p : Progress) : p.isComplete = true ↔
    ∃ names : Finset String, names.card = p.required ∧ ∀ name ∈ names, p.isSolved name = true := by
  have hnodup : p.solved.toList.Nodup :=
    Std.ExtTreeSet.distinct_toList.imp fun hne heq => hne (Std.compare_eq_iff_eq.mpr heq)
  have hcard : p.solved.toList.toFinset.card = p.count := by
    rw [List.toFinset_card_of_nodup hnodup, Std.ExtTreeSet.length_toList, count]
  have hmem : ∀ name, name ∈ p.solved.toList.toFinset ↔ p.isSolved name = true := fun name => by
    rw [List.mem_toFinset, Std.ExtTreeSet.mem_toList, isSolved, Std.ExtTreeSet.contains_iff_mem]
  rw [isComplete, decide_eq_true_iff, ← hcard]
  constructor
  · intro hle
    obtain ⟨names, hsub, hnames⟩ := Finset.exists_subset_card_eq hle
    exact ⟨names, hnames, fun name h => (hmem name).mp (hsub h)⟩
  · rintro ⟨names, hnames, hsolved⟩
    rw [← hnames]
    exact Finset.card_le_card fun name h => (hmem name).mpr (hsolved name h)

end Progress

/-! ## What a success stands for -/

variable {st : Station} {d : Device σ}

namespace Supervisor

/-- A script begins in the world that its challenge is laid out in. -/
theorem world_of_begun? {s begun : Supervisor σ} {challenge : Option Challenge}
    {world : Option World} (h : s.begun? st d challenge = some (world, begun)) :
    challenge.mapM World.ofChallenge = .ok world := by
  unfold begun? at h
  split at h
  · simp at h
  · next hworld =>
    rw [hworld]
    dsimp only at h
    split at h
    · rw [(Prod.mk.inj (Option.some.inj h)).1]
    · split at h
      · rw [(Prod.mk.inj (Option.some.inj h)).1]
      all_goals simp at h

/-- A script that is reported as a success was run in the world of its challenge. -/
theorem begun?_of_isSuccess {s : Supervisor σ} {source : List Char} {challenge : Challenge}
    {report : Report} (h : (s.runScript st d source (some challenge)).1 = .ok report)
    (hsuccess : report.isSuccess = true) :
    ∃ fresh begun, World.ofChallenge challenge = .ok fresh ∧
      s.begun? st d (some challenge) = some (some fresh, begun) := by
  have hfailed : ∀ {fault t}, (s.wait d).2.attempt st d source (some challenge) ≠
      (.ok (.failed fault), t) := by
    intro fault t hattempt
    simp only [runScript, hattempt] at h
    obtain rfl := Except.ok.inj h
    exact absurd hsuccess Bool.false_ne_true
  rcases attempt_cases st d source (some challenge) s with
    ⟨world, begun, hbegun, -⟩ | ⟨-, ⟨fault, hattempt⟩ | ⟨fault, -, hattempt, -⟩ | ⟨b, t, hattempt⟩⟩
  · have hworld := world_of_begun? hbegun
    cases hfresh : World.ofChallenge challenge with
    | error fault => simp [hfresh] at hworld
    | ok fresh =>
      obtain rfl : some fresh = world := by simpa [hfresh] using hworld
      exact ⟨fresh, begun, rfl, hbegun⟩
  · exact absurd hattempt hfailed
  · exact absurd hattempt hfailed
  · simp [runScript, hattempt] at h

end Supervisor

namespace Scene

/-- A run that is reported as a success was completed, and the goal is reached in the blocks that it
leaves. -/
theorem solved_of_isSuccess {source : List Char} {s : Scene σ} {report : Report}
    (h : (runSource st d source s).1 = .ok report) (hsuccess : report.isSuccess = true) :
    report.state = .completed ∧ ∃ blocks operations w, s.world = some w ∧
      (runSource st d source s).2.world = some blocks ∧
      blocks = w.afterAll operations ∧ blocks.solved = true := by
  have hformed := wellFormed_runSource h
  have hverdict : report.success? = some true := by simpa [Report.isSuccess] using hsuccess
  obtain ⟨hstate, hworld⟩ := hformed.success_iff.mp (by rw [hverdict]; rfl)
  obtain ⟨w, hw⟩ := Option.isSome_iff_exists.mp hworld
  obtain ⟨operations, hplays⟩ := plays_runSource st d source s
  rw [hw, Option.map_some] at hplays
  have hsolved := hformed.success_eq hstate
  rw [hverdict, hplays, Option.map_some] at hsolved
  exact ⟨hstate, _, operations, w, hw, hplays, rfl, (Option.some.inj hsolved).symm⟩

end Scene

/-! ## Trials -/

/-- A script that is tried at a challenge, on the supervisor that it reaches. -/
structure Trial (σ : Type) where
  before : Supervisor σ
  source : List Char
  catalog : Catalog
  name : String
  progress : Progress

namespace Trial

variable (st d)

/-- What is answered to a trial, and what it leaves. -/
def call (t : Trial σ) : Except Breakdown Report × Progress × Supervisor σ :=
  t.before.runChallenge st d t.source t.catalog t.name t.progress

/-- The trial is reported as a success. -/
def Succeeds (t : Trial σ) : Prop :=
  ∃ report, (t.call st d).1 = .ok report ∧ report.isSuccess = true

/-- The run of a trial was completed in a fresh world of its challenge, and each goal block is
matched by a block of its own in the end. -/
structure Earned (t : Trial σ) (report : Report) (challenge : Challenge) (fresh blocks : World)
    (begun : Supervisor σ) : Prop where
  get_eq : t.catalog.get t.name = .ok challenge
  fresh_eq : World.ofChallenge challenge = .ok fresh
  /-- The run begins with that world once the arm is at home. -/
  begun_eq : t.before.begun? st d (some challenge) = some (some fresh, begun)
  report_eq : (Scene.runSource st d t.source { rig := begun.rig, world := some fresh }).1 =
    .ok report
  state_eq : report.state = .completed
  blocks_eq : (Scene.runSource st d t.source { rig := begun.rig, world := some fresh }).2.world =
    some blocks
  goal_eq : challenge.blocksFrom 0 challenge.goal = .ok blocks.goal
  matched : ∃ number : Fin blocks.goal.length → Nat, Function.Injective number ∧
    ∀ i, ∃ b : Block, blocks.lying[number i]? = some b ∧ b.Agrees (blocks.goal.get i)

variable {st d}

/-- A success is earned. -/
theorem earned_of_isSuccess {t : Trial σ} {report : Report} (h : (t.call st d).1 = .ok report)
    (hsuccess : report.isSuccess = true) :
    ∃ challenge fresh blocks begun, t.Earned st d report challenge fresh blocks begun := by
  unfold call at h
  cases hget : t.catalog.get t.name with
  | error fault =>
    simp only [Supervisor.runChallenge, hget] at h
    obtain rfl := Except.ok.inj h
    exact absurd hsuccess Bool.false_ne_true
  | ok challenge =>
    rw [(Session.runChallenge_runScript st d t.before t.source t.progress hget).1] at h
    obtain ⟨fresh, begun, hfresh, hbegun⟩ := Supervisor.begun?_of_isSuccess h hsuccess
    rw [Supervisor.runScript_of_begun? hbegun] at h
    obtain ⟨hstate, blocks, operations, w, hw, hblocks, hafter, hsolved⟩ :=
      Scene.solved_of_isSuccess h hsuccess
    obtain rfl := Option.some.inj hw
    have hjudged := World.judged_afterAll hfresh operations
    rw [← hafter] at hjudged
    exact ⟨challenge, fresh, blocks, begun, hget, hfresh, hbegun, h, hstate, hblocks,
      hjudged.goal_eq, hjudged.solved_iff.mp hsolved⟩

/-- A trial is recorded just where it succeeds. -/
theorem progress_call (t : Trial σ) :
    t.Succeeds st d ∧ (t.call st d).2.1 = t.progress.record t.name ∨
      ¬ t.Succeeds st d ∧ (t.call st d).2.1 = t.progress := by
  unfold Succeeds call Supervisor.runChallenge
  cases t.catalog.get t.name with
  | error fault =>
    refine .inr ⟨?_, rfl⟩
    rintro ⟨report, hreport, hsuccess⟩
    obtain rfl := Except.ok.inj hreport
    exact absurd hsuccess Bool.false_ne_true
  | ok challenge =>
    dsimp only
    rcases t.before.runScript st d t.source (some challenge) with ⟨b | report, after⟩
    · exact .inr ⟨by simp, rfl⟩
    · cases hsuccess : report.isSuccess with
      | true => exact .inl ⟨⟨report, rfl, hsuccess⟩, if_pos hsuccess⟩
      | false =>
        refine .inr ⟨?_, if_neg (Bool.eq_false_iff.mp hsuccess)⟩
        rintro ⟨report', hreport, hsuccess'⟩
        obtain rfl := Except.ok.inj hreport
        exact Bool.eq_false_iff.mp hsuccess hsuccess'

/-- What is solved after a trial. -/
theorem isSolved_call (t : Trial σ) (name : String) :
    (t.call st d).2.1.isSolved name = true ↔
      name = t.name ∧ t.Succeeds st d ∨ t.progress.isSolved name = true := by
  rcases t.progress_call with ⟨hsucceeds, hprogress⟩ | ⟨hfails, hprogress⟩
  · rw [hprogress, Progress.isSolved_record, and_iff_left hsucceeds]
  · rw [hprogress, or_iff_right fun h => hfails h.2]

theorem required_call (t : Trial σ) : (t.call st d).2.1.required = t.progress.required := by
  rcases t.progress_call with ⟨-, hprogress⟩ | ⟨-, hprogress⟩ <;> rw [hprogress]
  exact Progress.required_record _ _

end Trial

/-! ## Courses -/

/-- What may come next in a course. -/
inductive Turn where
  /-- A script is tried at a challenge of a catalog. -/
  | tries (source : List Char) (catalog : Catalog) (name : String)
  /-- Something else is asked of the supervisor. -/
  | request (request : Request)

/-- A supervisor, the progress, and the trials so far, the latest first. -/
structure Course (σ : Type) where
  supervisor : Supervisor σ
  progress : Progress
  trials : List (Trial σ) := []

namespace Course

/-- A course in which nothing is solved yet. -/
def start (s : Supervisor σ) (required : Nat) : Course σ :=
  { supervisor := s, progress := { required } }

variable (st d)

/-- The course after one turn. -/
def after (c : Course σ) : Turn → Course σ
  | .tries source catalog name =>
    let t : Trial σ := ⟨c.supervisor, source, catalog, name, c.progress⟩
    { supervisor := (t.call st d).2.2
      progress := (t.call st d).2.1
      trials := t :: c.trials }
  | .request request =>
    { c with supervisor := (Session.after st d ⟨c.supervisor, none⟩ request).supervisor }

/-- The course after turns in order. -/
def afterAll (c : Course σ) (turns : List Turn) : Course σ := turns.foldl (after st d) c

variable {st d}

/-- Challenges are solved just where a trial of them has succeeded. -/
structure Fair (st : Station) (d : Device σ) (required : Nat) (c : Course σ) : Prop where
  isSolved_iff : ∀ name, c.progress.isSolved name = true ↔
    ∃ t ∈ c.trials, t.name = name ∧ t.Succeeds st d
  required_eq : c.progress.required = required

variable {required : Nat} {c : Course σ}

theorem fair_start (s : Supervisor σ) (required : Nat) : (start s required).Fair st d required where
  isSolved_iff name := by simp [start, Progress.isSolved]
  required_eq := rfl

/-- Every turn is fair. -/
theorem Fair.after (h : c.Fair st d required) (turn : Turn) :
    (c.after st d turn).Fair st d required := by
  cases turn with
  | request request => exact ⟨h.isSolved_iff, h.required_eq⟩
  | tries source catalog name =>
    refine ⟨fun other => ?_, (Trial.required_call _).trans h.required_eq⟩
    refine (Trial.isSolved_call _ other).trans ?_
    simp only [Course.after, List.exists_mem_cons_iff, h.isSolved_iff other, eq_comm]

theorem Fair.afterAll (turns : List Turn) : ∀ {c : Course σ}, c.Fair st d required →
    (c.afterAll st d turns).Fair st d required := by
  induction turns with
  | nil => exact fun h => h
  | cons turn turns ih => exact fun h => ih (h.after turn)

/-- What is solved stays solved. -/
theorem isSolved_after (turn : Turn) {name : String} (h : c.progress.isSolved name = true) :
    (c.after st d turn).progress.isSolved name = true := by
  cases turn with
  | request request => exact h
  | tries source catalog tried => exact (Trial.isSolved_call _ name).mpr (.inr h)

theorem isSolved_afterAll (turns : List Turn) {name : String} : ∀ {c : Course σ},
    c.progress.isSolved name = true → (c.afterAll st d turns).progress.isSolved name = true := by
  induction turns with
  | nil => exact fun h => h
  | cons turn turns ih => exact fun h => ih (isSolved_after turn h)

/-- **Successes are credited, and nothing else is.**  After any turns of a course, on a device whose
calls may fail, a challenge is solved just where a trial of it was reported as a success.  The run
of such a trial was completed in a fresh world of the challenge, with its goal reached.  What is
solved stays solved, and the course is complete when enough different challenges are.  A trial of a
challenge that its catalog does not know changes nothing and makes no call. -/
theorem credit (st : Station) (d : Device σ) (s : Supervisor σ) (required : Nat)
    (turns : List Turn) :
    let course := (start s required).afterAll st d turns
    (∀ name, course.progress.isSolved name = true ↔
      ∃ t ∈ course.trials, t.name = name ∧ t.Succeeds st d) ∧
    (∀ t ∈ course.trials, ∀ report, (t.call st d).1 = .ok report → report.isSuccess = true →
      ∃ challenge fresh blocks begun, t.Earned st d report challenge fresh blocks begun) ∧
    (∀ later name, course.progress.isSolved name = true →
      (course.afterAll st d later).progress.isSolved name = true) ∧
    (course.progress.isComplete = true ↔ ∃ names : Finset String, names.card = required ∧
      ∀ name ∈ names, ∃ t ∈ course.trials, t.name = name ∧ t.Succeeds st d) ∧
    ∀ source catalog name, name ∉ catalog.names →
      course.supervisor.runChallenge st d source catalog name course.progress =
        (.ok (.failed (.unknownChallenge name)), course.progress, course.supervisor) := by
  intro course
  have hfair : course.Fair st d required := (fair_start s required).afterAll turns
  refine ⟨hfair.isSolved_iff, fun t _ report => Trial.earned_of_isSuccess,
    fun later name => isSolved_afterAll later, ?_, fun source catalog name h => ?_⟩
  · simp only [Progress.isComplete_iff, hfair.required_eq, hfair.isSolved_iff]
  · simp only [Supervisor.runChallenge, Catalog.get_of_notMem h]

/-- A supervisor that is bringing the arm home. -/
def bringingHome : Supervisor Recorder :=
  (({ rig := Station.standard.rig {} } : Supervisor Recorder).startReset .standard).2

/-- A script that only lifts the arm, tried at the exchange of two cubes, which lie as they
should. -/
def liftTrial : Trial Recorder :=
  ⟨bringingHome, Session.liftSource, ⟨[World.exchangedCubes]⟩, "exchange", { required := 1 }⟩

theorem succeeds_liftTrial : liftTrial.Succeeds .standard .recorder := by
  have hget : liftTrial.catalog.get liftTrial.name = .ok World.exchangedCubes := by
    simp [Catalog.get, liftTrial, World.exchangedCubes]
  have hworld : (some World.exchangedCubes).mapM World.ofChallenge = .ok (some World.cubes) := by
    simp [World.ofChallenge_exchangedCubes]
  have hhomed : (bringingHome.wait .recorder).2.homed = true := by decide +kernel
  have hbegun : bringingHome.begun? .standard .recorder (some World.exchangedCubes) =
      some (some World.cubes, (bringingHome.wait .recorder).2) := by
    simp only [Supervisor.begun?, hworld, hhomed, if_true]
  have hsuccess : (Scene.runSource .standard .recorder Session.liftSource
      ⟨(bringingHome.wait .recorder).2.rig, some World.cubes⟩).1.toOption.any Report.isSuccess =
        true := by
    decide +kernel
  have hcall : (liftTrial.call .standard .recorder).1 = (Scene.runSource .standard .recorder
      Session.liftSource ⟨(bringingHome.wait .recorder).2.rig, some World.cubes⟩).1 :=
    (Session.runChallenge_runScript .standard .recorder bringingHome Session.liftSource
      { required := 1 } hget).1.trans (Supervisor.runScript_of_begun? hbegun _)
  rw [← hcall] at hsuccess
  rcases hresult : (liftTrial.call .standard .recorder).1 with b | report
  · rw [hresult] at hsuccess
    exact absurd hsuccess Bool.false_ne_true
  · rw [hresult] at hsuccess
    exact ⟨report, hresult, hsuccess⟩

/-- The trial is credited and completes a course of one challenge.  Its catalog knows no other. -/
theorem credit_liftTrial :
    let course := (start bringingHome 1).afterAll .standard .recorder
      [.tries Session.liftSource ⟨[World.exchangedCubes]⟩ "exchange"]
    course.progress.isSolved "exchange" = true ∧ course.progress.isComplete = true ∧
    (∃ report challenge fresh blocks begun,
      liftTrial.Earned .standard .recorder report challenge fresh blocks begun) ∧
    course.supervisor.runChallenge .standard .recorder Session.liftSource
      ⟨[World.exchangedCubes]⟩ "tower" course.progress =
        (.ok (.failed (.unknownChallenge "tower")), course.progress, course.supervisor) := by
  intro course
  obtain ⟨hsolved, hearned, -, hcomplete, hunknown⟩ := credit .standard .recorder bringingHome 1
    [.tries Session.liftSource ⟨[World.exchangedCubes]⟩ "exchange"]
  have htrial : liftTrial ∈ course.trials := List.mem_singleton_self liftTrial
  have hnames : "tower" ∉ liftTrial.catalog.names := by
    simp [Catalog.names, liftTrial, World.exchangedCubes]
  obtain ⟨report, hreport, hsuccess⟩ := succeeds_liftTrial
  refine ⟨(hsolved "exchange").mpr ⟨liftTrial, htrial, rfl, succeeds_liftTrial⟩,
    hcomplete.mpr ⟨{"exchange"}, Finset.card_singleton _, ?_⟩, ?_, hunknown _ _ _ hnames⟩
  · intro name hname
    exact ⟨liftTrial, htrial, (Finset.mem_singleton.mp hname).symm, succeeds_liftTrial⟩
  · exact ⟨report, hearned liftTrial htrial report hreport hsuccess⟩

end Course

end BlockArm
