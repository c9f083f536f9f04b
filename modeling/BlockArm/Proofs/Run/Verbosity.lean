/-
# Verbosity

The verbosity decides which messages are kept and nothing else.  Whatever is asked of an arm, a
quieter rig answers the same, makes the same calls and leaves the same scene as a verbose one, and
the messages it keeps are those of the verbose rig that its verbosity lets pass, in their order.

* `Rig.hush`: what a quieter rig would have kept;
* `simulates_hush`: a quieter rig takes every step as a verbose one does;
* `Errand`, `Scene.serveAll`: runs and drives home, and what other hands do between them;
* `Scene.serveAll_telling`: a quieter scene is the verbose one, hushed;
* `Scene.serveAll_verbosity`: the verbosity shows in the log only.
-/
import BlockArm.Proofs.Run.Logging

namespace BlockArm

variable {σ α : Type}

/-! ## Hushed rigs -/

namespace Rig

/-- What a rig of another verbosity would have kept. -/
def hush (v : Verbosity) (r : Rig σ) : Rig σ :=
  { r with verbosity := v, log := r.log.filter fun line => v.keeps line.level }

theorem verbosity_say (r : Rig σ) (level : Level) (text : String) :
    (r.say level text).verbosity = r.verbosity := by
  unfold say
  split <;> rfl

/-- A verbose rig keeps every message, and a hushed one the message that its verbosity keeps. -/
theorem hush_say {r : Rig σ} (h : r.verbosity = .verbose) (v : Verbosity) (level : Level)
    (text : String) : (r.say level text).hush v = (r.hush v).say level text := by
  have hkept : r.say level text = { r with log := r.log.push ⟨level, text⟩ } := by
    rw [say, h, if_pos (Verbosity.keeps_verbose level)]
  rw [hkept]
  simp only [hush, Array.filter_push]
  split
  · next hkeeps => exact (if_pos hkeeps).symm
  · next hkeeps => exact (if_neg hkeeps).symm

/-- A verbose rig beside one that tells less. -/
structure Hushed (v : Verbosity) (r r' : Rig σ) : Prop where
  verbose : r.verbosity = .verbose
  eq_hush : r' = r.hush v

end Rig

/-- A rig that tells less takes every single step as a verbose one does. -/
theorem simulates_hush (d : Device σ) (v : Verbosity) : Simulates d d (Rig.Hushed v) where
  arm_eq := by rintro r _ ⟨-, rfl⟩; rfl
  warnings_eq := by rintro r _ ⟨-, rfl⟩; rfl
  pose_eq := by rintro r _ ⟨-, rfl⟩; rfl
  answer_eq := by rintro r _ ⟨-, rfl⟩ c; rfl
  ask := by rintro r _ ⟨h, rfl⟩ c; exact ⟨h, rfl⟩
  say := by
    rintro r _ ⟨h, rfl⟩ level text
    exact ⟨(r.verbosity_say level text).trans h, (Rig.hush_say h v level text).symm⟩
  believe := by rintro r _ ⟨h, rfl⟩ arm; exact ⟨h, rfl⟩
  record := by rintro r _ ⟨h, rfl⟩ warnings; exact ⟨h, rfl⟩
  enter := by rintro r _ ⟨h, rfl⟩ state; exact ⟨h, rfl⟩

/-! ## Stations that tell less -/

namespace Station

/-- The station whose arms begin with another verbosity. -/
def telling (st : Station) (v : Verbosity) : Station :=
  { st with settings := { st.settings with verbosity := v } }

variable (st : Station) (v : Verbosity)

theorem visit_telling (columns : List (Int32 × Int32)) : ∀ (arm : ArmState) (drift : Int32),
    (st.telling v).visit arm drift columns = st.visit arm drift columns := by
  induction columns with
  | nil => exact fun _ _ => rfl
  | cons column rest ih =>
    intro arm drift
    obtain ⟨x, y⟩ := column
    simp only [visit, ih]
    rfl

/-- No statement looks at the verbosity. -/
theorem plan_telling (arm : ArmState) (statement : Statement) :
    (st.telling v).plan arm statement = st.plan arm statement := by
  obtain ⟨line, command⟩ := statement
  cases command with
  | diagnose arguments =>
    unfold plan commandPlan diagnose tour
    simp only [visit_telling]
    rfl
  | _ => rfl

end Station

/-! ## Errands -/

/-- Something that is asked of an arm, or that happens to it in between. -/
inductive Errand (σ : Type) where
  | run (program : Program)
  | runSource (source : List Char)
  | home
  /-- Other hands change the device, ask for a stop or take that back, and change the world. -/
  | hand (device : σ → σ) (stop : Bool) (world : Option World → Option World)

/-- What an errand answers. -/
inductive Told where
  | report (result : Except Breakdown Report)
  | homed (outcome : Outcome Unit)
  | nothing

/-- The same errand where the device is logged. -/
def Errand.logged : Errand σ → Errand (Logged σ)
  | run program => run program
  | runSource source => runSource source
  | home => home
  | hand device stop world => hand (fun w => { w with device := device w.device }) stop world

namespace Scene

/-- Does an errand. -/
def serve (st : Station) (d : Device σ) : Errand σ → Scene σ → Told × Scene σ
  | .run program, s =>
    let (report, s) := run st d program s
    (.report report, s)
  | .runSource source, s =>
    let (report, s) := runSource st d source s
    (.report report, s)
  | .home, ⟨rig, world⟩ =>
    let (outcome, rig) := home st d rig
    (.homed outcome, ⟨rig, world⟩)
  | .hand device stop change, ⟨rig, world⟩ =>
    (.nothing, ⟨{ rig with device := device rig.device, stop }, change world⟩)

/-- Does one errand after the other. -/
def serveAll (st : Station) (d : Device σ) : List (Errand σ) → Scene σ → List Told × Scene σ
  | [], s => ([], s)
  | errand :: errands, s =>
    let (told, s) := serve st d errand s
    let (rest, s) := serveAll st d errands s
    (told :: rest, s)

/-- The calls that errands make, with their answers, the earliest first. -/
def served (st : Station) (d : Device σ) (errands : List (Errand σ)) (s : Scene σ) :
    List (Call × Answer) :=
  (serveAll st d.logged (errands.map Errand.logged) s.logged).2.rig.device.trace.reverse

/-- The scene with another verbosity and no message yet. -/
def telling (s : Scene σ) (v : Verbosity) : Scene σ :=
  { s with rig := { s.rig with verbosity := v, log := #[] } }

/-- What a scene of another verbosity would have kept. -/
def hush (v : Verbosity) (s : Scene σ) : Scene σ := { s with rig := s.rig.hush v }

/-! ## Errands of the two stations -/

variable (st : Station) (d : Device σ) (v : Verbosity)

theorem perform_telling (statement : Statement) (s : Scene σ) :
    perform (st.telling v) d statement s = perform st d statement s := by
  simp only [perform, Station.plan_telling]

theorem performAll_telling (program : Program) : ∀ (n : Nat) (s : Scene σ),
    performAll (st.telling v) d n program s = performAll st d n program s := by
  induction program with
  | nil => exact fun _ _ => rfl
  | cons statement rest ih =>
    intro n s
    simp only [performAll, perform_telling, ih]

theorem run_telling (program : Program) (s : Scene σ) :
    run (st.telling v) d program s = run st d program s := by
  simp only [run, performAll_telling]
  rfl

theorem runSource_telling (source : List Char) (s : Scene σ) :
    runSource (st.telling v) d source s = runSource st d source s := by
  simp only [runSource, run_telling]

/-- The verbosity of a station matters to the rig that it sets up, and never again. -/
theorem serve_telling (errand : Errand σ) (s : Scene σ) :
    serve (st.telling v) d errand s = serve st d errand s := by
  cases errand with
  | run program => simp only [serve, run_telling]
  | runSource source => simp only [serve, runSource_telling]
  | home => rfl
  | hand device stop change => rfl

/-! ## Errands of the two rigs -/

variable {v} {s s' : Scene σ}

/-- An errand is done alike where less is told. -/
theorem serve_hushed (errand : Errand σ) (h : Related (Rig.Hushed v) s s') :
    (serve st d errand s').1 = (serve st d errand s).1 ∧
      Related (Rig.Hushed v) (serve st d errand s).2 (serve st d errand s').2 := by
  have hstop : ∀ {r r' : Rig σ}, r.Hushed v r' → r.stop = r'.stop := by
    rintro r _ ⟨-, rfl⟩
    rfl
  cases errand with
  | run program =>
    obtain ⟨hreport, hafter⟩ := (simulates_hush d v).run hstop st program h
    exact ⟨congrArg Told.report hreport.symm, hafter⟩
  | runSource source =>
    obtain ⟨hreport, hafter⟩ := (simulates_hush d v).runSource hstop st source h
    exact ⟨congrArg Told.report hreport.symm, hafter⟩
  | home =>
    obtain ⟨houtcome, hafter⟩ := (simulates_hush d v).home st h.rig
    exact ⟨congrArg Told.homed houtcome.symm, hafter, h.world⟩
  | hand device stop change =>
    obtain ⟨⟨hverbose, heq⟩, hworld⟩ := h
    refine ⟨rfl, ⟨hverbose, ?_⟩, congrArg change hworld⟩
    simp only [serve, heq]
    rfl

theorem serveAll_hushed (errands : List (Errand σ)) : ∀ {s s' : Scene σ},
    Related (Rig.Hushed v) s s' →
      (serveAll (st.telling v) d errands s').1 = (serveAll (st.telling .verbose) d errands s).1 ∧
        Related (Rig.Hushed v) (serveAll (st.telling .verbose) d errands s).2
          (serveAll (st.telling v) d errands s').2 := by
  induction errands with
  | nil => exact fun h => ⟨rfl, h⟩
  | cons errand errands ih =>
    intro s s' h
    obtain ⟨htold, hafter⟩ := serve_hushed st d errand h
    obtain ⟨hrest, hlast⟩ := ih hafter
    simp only [serveAll, serve_telling]
    exact ⟨by rw [htold, hrest], hlast⟩

/-- A quieter scene answers as the verbose one does and ends as that, hushed. -/
theorem serveAll_telling (st : Station) (d : Device σ) (errands : List (Errand σ)) (s : Scene σ)
    (v : Verbosity) : serveAll (st.telling v) d errands (s.telling v) =
      ((serveAll (st.telling .verbose) d errands (s.telling .verbose)).1,
        (serveAll (st.telling .verbose) d errands (s.telling .verbose)).2.hush v) := by
  have hbegin : Related (Rig.Hushed v) (s.telling .verbose) (s.telling v) := ⟨⟨rfl, rfl⟩, rfl⟩
  obtain ⟨htold, ⟨-, hrig⟩, hworld⟩ := serveAll_hushed st d errands hbegin
  refine Prod.ext htold ?_
  rw [hush, ← hrig, hworld]

/-- So it makes the same calls. -/
theorem served_telling (st : Station) (d : Device σ) (errands : List (Errand σ)) (s : Scene σ)
    (v : Verbosity) : served (st.telling v) d errands (s.telling v) =
      served (st.telling .verbose) d errands (s.telling .verbose) := by
  have hlogged : ∀ u : Verbosity, (s.telling u).logged = s.logged.telling u := fun _ => rfl
  unfold served
  rw [hlogged, hlogged, serveAll_telling st d.logged _ s.logged v]
  rfl

end Scene

theorem Verbosity.keeps_normal (level : Level) : normal.keeps level = decide (level ≠ .debug) := by
  cases level <;> rfl

theorem Verbosity.keeps_quiet (level : Level) : quiet.keeps level = decide (level = .error) := by
  cases level <;> rfl

/-- **The verbosity shows in the log only.**  Whatever is asked of an arm, another verbosity changes
no answer, no call, and nothing of the scene except the log.  A normal log is the verbose one
without its debug messages, and a quiet log consists of its errors. -/
theorem Scene.serveAll_verbosity (st : Station) (d : Device σ) (errands : List (Errand σ))
    (s : Scene σ) :
    let telling (v : Verbosity) := serveAll (st.telling v) d errands (s.telling v)
    (∀ v v', (telling v).1 = (telling v').1 ∧
      served (st.telling v) d errands (s.telling v) =
        served (st.telling v') d errands (s.telling v') ∧
      (telling v).2.rig.device = (telling v').2.rig.device ∧
      (telling v).2.rig.arm = (telling v').2.rig.arm ∧
      (telling v).2.rig.state = (telling v').2.rig.state ∧
      (telling v).2.rig.warnings = (telling v').2.rig.warnings ∧
      (telling v).2.world = (telling v').2.world) ∧
    (telling .normal).2.rig.log = (telling .verbose).2.rig.log.filter (·.level ≠ .debug) ∧
    (telling .quiet).2.rig.log = (telling .verbose).2.rig.log.filter (·.level = .error) := by
  intro telling
  have hhush : ∀ v, telling v = ((telling .verbose).1, (telling .verbose).2.hush v) :=
    serveAll_telling st d errands s
  refine ⟨fun v v' => ?_, ?_, ?_⟩
  · rw [hhush v, hhush v', served_telling st d errands s v, served_telling st d errands s v']
    exact ⟨rfl, rfl, rfl, rfl, rfl, rfl, rfl⟩
  · rw [hhush .normal]
    simp only [hush, Rig.hush, Verbosity.keeps_normal]
  · rw [hhush .quiet]
    simp only [hush, Rig.hush, Verbosity.keeps_quiet]

end BlockArm
