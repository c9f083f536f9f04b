/-
# Runs that lose the connection

A recording device that loses its connection after some calls does what one that keeps it does, until
the first call that is one too many.  That call ends the statement or the parking that makes it, at
whichever of its steps, and with it the run.  The other run may go on, but it only adds to its calls.

* `Device.Tied`: two recording devices, of which only one will lose its connection;
* `Device.Severed`: the connection is lost, and all calls before are calls of the other device, too;
* `Plan.exec_tied`, `Scene.performAll_tied`: plans and statements keep two devices tied, or the
  connection is lost;
* `Scene.run_severed`: what is recorded and reported of a run that may lose the connection.
-/
import BlockArm.Proofs.Run.Likeness
import BlockArm.Proofs.Run.Watching

namespace BlockArm

variable {α : Type} {n : Nat}

/-! ## Two recording devices -/

namespace Device

/-- The connection stands, and the trace holds the recorded calls. -/
structure Kept (w : Logged Recorder) : Prop where
  stands : w.device.failAfter = none
  trace_eq : w.trace = (w.device.calls.toList.map fun c => (c, Answer.done)).reverse

/-- The second device is the first one but for the connection, which it loses after `n` calls.  It
has not lost it yet. -/
structure Tied (n : Nat) (w w' : Logged Recorder) : Prop where
  kept : Kept w
  size_le : w.device.calls.size ≤ n
  eq : w' = ⟨{ w.device with failAfter := some n }, w.trace⟩

/-- The second device has done and recorded `n` calls and has then failed in one more.  The first
one has done the same calls, and the last of them as well. -/
def Severed (n : Nat) (w w' : Logged Recorder) : Prop :=
  ∃ (c : Call) (t : Trace), w'.trace = (c, .failed Recorder.lost) :: t ∧
    w'.device.calls.toList = t.reverse.map Prod.fst ∧ t.length = n ∧ (c, .done) :: t <:+ w.trace

variable {w w' w'' : Logged Recorder}

/-- The device with a connection may go on. -/
theorem Severed.mono (h : Severed n w w') (hsuffix : w.trace <:+ w''.trace) : Severed n w'' w' := by
  obtain ⟨c, t, htrace, hcalls, hlength, hdone⟩ := h
  exact ⟨c, t, htrace, hcalls, hlength, hdone.trans hsuffix⟩

/-- The first recorded calls are the first ones of the trace. -/
theorem Kept.calls_eq (h : Kept w) : w.device.calls.toList = w.trace.reverse.map Prod.fst := by
  rw [h.trace_eq, List.reverse_reverse, List.map_map]
  exact (List.map_id _).symm

/-- What a device with a connection has recorded tells what was recorded by the one that has lost it,
and what was tried on that. -/
theorem Severed.calls_eq (h : Severed n w w') (hkept : Kept w) :
    w'.device.calls.toList = w.device.calls.toList.take n ∧
    ∃ c, w.device.calls.toList[n]? = some c ∧ w'.trace.reverse =
      (w.device.calls.toList.take n).map (·, .done) ++ [(c, .failed Recorder.lost)] := by
  obtain ⟨c, t, htrace, hcalls, hlength, older, hdone⟩ := h
  have hwhole : w.trace.reverse = t.reverse ++ (c, .done) :: older.reverse := by
    rw [← hdone, List.reverse_append, List.reverse_cons, List.append_assoc]
    rfl
  have hanswers : w.device.calls.toList.map (·, Answer.done) = w.trace.reverse := by
    rw [hkept.trace_eq, List.reverse_reverse]
  have hn : (t.reverse.map Prod.fst).length = n := by rw [List.length_map, List.length_reverse, hlength]
  refine ⟨?_, c, ?_, ?_⟩
  · rw [hcalls, hkept.calls_eq, hwhole, List.map_append, List.take_left' hn]
  · rw [hkept.calls_eq, hwhole, List.map_append, List.getElem?_append_right (Nat.le_of_eq hn), hn,
      Nat.sub_self]
    rfl
  · rw [htrace, List.reverse_cons, List.map_take, hanswers, hwhole,
      List.take_left' (by rw [List.length_reverse, hlength])]

/-- A call to a device whose connection stands is done and recorded. -/
theorem Kept.perform (h : Kept w) (c : Call) :
    (recorder.logged.perform c w).1 = ⟨.done, false⟩ ∧
      Kept (recorder.logged.perform c w).2 ∧
      (recorder.logged.perform c w).2 =
        ⟨{ w.device.track c with calls := w.device.calls.push c }, (c, .done) :: w.trace⟩ := by
  have hcalls : (w.device.track c).calls = w.device.calls := by cases c <;> rfl
  have hstands : (w.device.track c).failAfter = none := by cases c <;> exact h.stands
  have hperform : recorder.perform c w.device =
      (⟨.done, false⟩, { w.device.track c with calls := w.device.calls.push c }) := by
    simp only [recorder, Recorder.perform, Recorder.isLost, h.stands, Bool.false_eq_true, if_false,
      hcalls]
  simp only [answer_logged, state_logged, hperform]
  refine ⟨trivial, ⟨hstands, ?_⟩, trivial⟩
  simp [h.trace_eq]

/-- A call to both devices is done by both, or it is one too many. -/
theorem Tied.perform (h : Tied n w w') (c : Call) :
    (recorder.logged.perform c w').1 = ⟨.done, false⟩ ∧
        Tied n (recorder.logged.perform c w).2 (recorder.logged.perform c w').2 ∨
      (recorder.logged.perform c w').1 = ⟨.failed Recorder.lost, false⟩ ∧
        Severed n (recorder.logged.perform c w).2 (recorder.logged.perform c w').2 := by
  obtain ⟨hkept, hsize, rfl⟩ := h
  obtain ⟨-, hkept', hafter⟩ := hkept.perform c
  rw [hafter] at hkept' ⊢
  by_cases hlost : n ≤ w.device.calls.size
  · -- all calls that the connection was good for have been made
    have hperform : recorder.perform c { w.device with failAfter := some n } =
        (⟨.failed Recorder.lost, false⟩, { w.device with failAfter := some n }) := by
      simp only [recorder, Recorder.perform, Recorder.isLost, hlost, decide_true, if_true]
    refine .inr ?_
    simp only [answer_logged, state_logged, hperform]
    refine ⟨trivial, c, w.trace, rfl, hkept.calls_eq, ?_, List.suffix_refl _⟩
    rw [hkept.trace_eq, List.length_reverse, List.length_map, Array.length_toList]
    exact Nat.le_antisymm hsize hlost
  · have hperform : recorder.perform c { w.device with failAfter := some n } =
        (⟨.done, false⟩,
          { w.device.track c with calls := w.device.calls.push c, failAfter := some n }) := by
      simp only [recorder, Recorder.perform, Recorder.isLost, hlost, decide_false,
        Bool.false_eq_true, if_false]
      cases c <;> rfl
    refine .inl ?_
    simp only [answer_logged, state_logged, hperform]
    refine ⟨trivial, hkept', ?_, rfl⟩
    simp only [Array.size_push]
    omega

end Device

open Device (Tied Severed Kept)

/-! ## Plans -/

/-- Two rigs on devices that are tied, with the same belief, warnings and stop request. -/
structure Rig.Tied (n : Nat) (r r' : Rig (Logged Recorder)) : Prop
    extends r.Alike (Device.Tied n) r' where
  stop : r.stop = r'.stop

namespace Rig

variable {r r' : Rig (Logged Recorder)}

theorem Tied.say (h : r.Tied n r') (level : Level) (text : String) :
    (r.say level text).Tied n (r'.say level text) :=
  ⟨h.toAlike.say level text, by rw [stop_say, stop_say, h.stop]⟩

theorem Tied.warn (h : r.Tied n r') (warning : WristWarning) :
    (r.warn warning).Tied n (r'.warn warning) :=
  ⟨h.toAlike.warn warning, (h.say .warn warning.message).stop⟩

end Rig

/-- A plan ends in the same way on two rigs that are tied, and they are tied afterwards; or the
connection is lost, which ends the plan on the one of them. -/
theorem Plan.exec_tied (p : Plan α) {r r' : Rig (Logged Recorder)} (h : r.Tied n r') :
    (p.exec Device.recorder.logged r).1 = (p.exec Device.recorder.logged r').1 ∧
        (p.exec Device.recorder.logged r).2.Tied n (p.exec Device.recorder.logged r').2 ∨
      (p.exec Device.recorder.logged r').1 = .fault (.device Recorder.lost) ∧
        Severed n (p.exec Device.recorder.logged r).2.device
          (p.exec Device.recorder.logged r').2.device := by
  induction p generalizing r r' with
  | done a => exact .inl ⟨rfl, h⟩
  | fail fault => exact .inl ⟨rfl, h⟩
  | broken b => exact .inl ⟨rfl, h⟩
  | call c next ih =>
    have hdone := (h.device.kept.perform c).1
    rcases h.device.perform c with ⟨hdone', hafter⟩ | ⟨hfailed, hsevered⟩
    · have htied : (r.ask Device.recorder.logged c).2.Tied n
          (r'.ask Device.recorder.logged c).2 := by
        refine ⟨⟨hafter, h.arm, h.warnings⟩, ?_⟩
        simp only [Rig.ask_snd, hdone, hdone', h.stop]
      simp only [exec, Rig.ask_fst, hdone, hdone']
      exact ih () htied
    · -- the one plan ends here, and the other one only adds to the trace
      refine .inr ?_
      simp only [exec, Rig.ask_fst, hdone, hfailed]
      refine ⟨trivial, hsevered.mono ?_⟩
      have hsuffix := Plan.ensures_exec (r := (r.ask Device.recorder.logged c).2)
        ((next ()).ensures_suffix Device.recorder _ (List.suffix_refl _))
      cases hexec : ((next ()).exec Device.recorder.logged
          (r.ask Device.recorder.logged c).2).1 <;>
        (rw [hexec] at hsuffix; exact hsuffix)
  | locate next ih =>
    have hpose : Device.recorder.logged.pose r'.device = Device.recorder.logged.pose r.device := by
      rw [h.device.eq]
      rfl
    simp only [exec, hpose]
    cases Device.recorder.logged.pose r.device with
    | ok pose => exact ih pose h
    | error message => exact .inl ⟨rfl, h⟩
  | believe arm next ih => exact ih ⟨⟨h.device, rfl, h.warnings⟩, h.stop⟩
  | note level text next ih => exact ih (h.say level text)
  | warn warning next ih => exact ih (h.warn warning)

/-! ## Statements -/

namespace Scene

variable {s s' : Scene (Logged Recorder)}

/-- Two scenes on rigs that are tied, with the same world. -/
structure Tied (n : Nat) (s s' : Scene (Logged Recorder)) : Prop where
  rig : s.rig.Tied n s'.rig
  world : s.world = s'.world

theorem Tied.say (h : s.Tied n s') (level : Level) (text : String) :
    (s.say level text).Tied n (s'.say level text) := ⟨h.rig.say level text, h.world⟩

/-- A statement ends in the same way in scenes that are tied, or the connection is lost. -/
theorem perform_tied (st : Station) (statement : Statement) (h : s.Tied n s') :
    (perform st Device.recorder.logged statement s).1 =
          (perform st Device.recorder.logged statement s').1 ∧
        (perform st Device.recorder.logged statement s).2.Tied n
          (perform st Device.recorder.logged statement s').2 ∨
      (perform st Device.recorder.logged statement s').1 = .fault (.device Recorder.lost) ∧
        Severed n (perform st Device.recorder.logged statement s).2.rig.device
          (perform st Device.recorder.logged statement s').2.rig.device := by
  obtain ⟨rig, world⟩ := s
  obtain ⟨rig', world'⟩ := s'
  obtain ⟨hrig, hworld⟩ := h
  replace hrig : rig.Tied n rig' := hrig
  have harm := hrig.arm
  have hexec := (st.plan rig'.arm statement).exec_tied hrig
  simp only [perform, harm]
  rcases hleft : (st.plan rig'.arm statement).exec Device.recorder.logged rig with ⟨outcome, after⟩
  rcases hright : (st.plan rig'.arm statement).exec Device.recorder.logged rig' with
    ⟨outcome', after'⟩
  rw [hleft, hright] at hexec
  rcases hexec with ⟨houtcome, hafter⟩ | ⟨hfault, hsevered⟩
  · obtain rfl : outcome = outcome' := houtcome
    refine .inl ?_
    cases outcome with
    | value effect =>
      have hsame : Related (Rig.Tied n) ⟨after, world⟩ ⟨after', world'⟩ := ⟨hafter, hworld⟩
      obtain ⟨houtcome, hrig, hworld⟩ := affect_related (fun hr => hr.say) effect hsame
      exact ⟨houtcome, hrig, hworld⟩
    | fault fault => exact ⟨rfl, hafter, hworld⟩
    | broken b => exact ⟨rfl, hafter, hworld⟩
  · -- the effect on the blocks, if the other plan comes to it, makes no call
    obtain rfl : outcome' = .fault (.device Recorder.lost) := hfault
    refine .inr ⟨rfl, ?_⟩
    cases outcome with
    | value effect =>
      simp only [(affect_rig effect ⟨after, world⟩).1]
      exact hsevered
    | fault fault => exact hsevered
    | broken b => exact hsevered

/-- The statements of a run end in the same way in scenes that are tied; or the connection is lost
in one of them, after which no more statements are carried out. -/
theorem performAll_tied (st : Station) (program : Program) :
    ∀ (m : Nat) {s s' : Scene (Logged Recorder)}, s.Tied n s' →
      (performAll st Device.recorder.logged m program s).1 =
            (performAll st Device.recorder.logged m program s').1 ∧
          (performAll st Device.recorder.logged m program s).2.Tied n
            (performAll st Device.recorder.logged m program s').2 ∨
        ∃ applied t, performAll st Device.recorder.logged m program s' =
            (⟨.fault (.device Recorder.lost), applied⟩, t) ∧
          applied ≤ (performAll st Device.recorder.logged m program s).1.applied ∧
          Severed n (performAll st Device.recorder.logged m program s).2.rig.device
            t.rig.device := by
  induction program with
  | nil => exact fun m _ _ h => .inl ⟨rfl, h⟩
  | cons statement rest ih =>
    intro m s s' h
    rw [performAll, performAll, h.rig.stop]
    split
    · exact .inl ⟨rfl, h.say _ _⟩
    · rcases hleft : perform st Device.recorder.logged statement s with ⟨outcome, after⟩
      rcases hright : perform st Device.recorder.logged statement s' with ⟨outcome', after'⟩
      have hperform := perform_tied st statement h
      rw [hleft, hright] at hperform
      rcases hperform with ⟨houtcome, hafter⟩ | ⟨hfault, hsevered⟩
      · obtain rfl : outcome = outcome' := houtcome
        cases outcome with
        | value u => exact ih (m + 1) hafter
        | fault fault => exact .inl ⟨rfl, hafter.say _ _⟩
        | broken b => exact .inl ⟨rfl, hafter⟩
      · obtain rfl : outcome' = .fault (.device Recorder.lost) := hfault
        refine .inr ⟨m, _, rfl, ?_, ?_⟩
        · cases outcome with
          | value u => exact Nat.le_of_succ_le (applied_performAll st _ rest (m + 1) after).1
          | fault fault => exact Nat.le_refl m
          | broken b => exact Nat.le_refl m
        · simp only [say, Rig.device_say]
          cases outcome with
          | value u => exact hsevered.mono (suffix_performAll rest (m + 1) (List.suffix_refl _))
          | fault fault =>
            simp only [Rig.device_say]
            exact hsevered
          | broken b => exact hsevered

/-! ## Runs -/

/-- How a run on the second of two devices compares with the same run on the first one: they end in
the same way, or the second one fails because the connection is lost, with no more statements
applied. -/
def Compared (n : Nat) (x x' : Except Breakdown Report × Scene (Logged Recorder)) : Prop :=
  x'.1 = x.1 ∧ Device.Tied n x.2.rig.device x'.2.rig.device ∨
    (∃ report, x'.1 = .ok report ∧ report.ending? = some (.failed (.device Recorder.lost)) ∧
      ∀ whole, x.1 = .ok whole → report.applied ≤ whole.applied) ∧
    Severed n x.2.rig.device x'.2.rig.device

/-- Runs that end in the same way are reported alike. -/
theorem finish_tied (state : RunState) (report : Report) (h : s.Tied n s') :
    Compared n (finish state report s) (finish state report s') := by
  refine .inl ⟨?_, h.rig.device⟩
  simp only [finish, h.rig.warnings]

/-- Parking ends in the same way, or the connection is lost while the arm is parked. -/
theorem conclude_tied (st : Station) (m : Nat) (h : s.Tied n s') :
    Compared n (conclude st Device.recorder.logged (.underway m) s)
      (conclude st Device.recorder.logged (.underway m) s') := by
  have hexec := st.park.exec_tied h.rig
  have happlied : ∀ whole, (conclude st Device.recorder.logged (.underway m) s).1 = .ok whole →
      whole.applied = m := fun whole => applied_conclude
  unfold conclude at happlied ⊢
  rcases hleft : st.park.exec Device.recorder.logged s.rig with ⟨outcome, rig⟩
  rcases hright : st.park.exec Device.recorder.logged s'.rig with ⟨outcome', rig'⟩
  rw [hleft] at happlied
  rw [hleft, hright] at hexec
  rcases hexec with ⟨houtcome, hrig⟩ | ⟨hfault, hsevered⟩
  · obtain rfl : outcome = outcome' := houtcome
    have hafter : Tied n { s with rig } { s' with rig := rig' } := ⟨hrig, h.world⟩
    cases outcome with
    | value u =>
      simp only [h.world] at hafter ⊢
      exact finish_tied _ _ (hafter.say _ _)
    | fault fault => exact finish_tied _ _ (hafter.say _ _)
    | broken b => exact .inl ⟨rfl, hrig.device⟩
  · obtain rfl : outcome' = .fault (.device Recorder.lost) := hfault
    refine .inr ⟨⟨_, rfl, rfl, fun whole hwhole => Nat.le_of_eq (happlied whole hwhole).symm⟩, ?_⟩
    cases outcome <;> simpa only [finish, say, Rig.device_say] using hsevered

/-- Runs in scenes that are tied end in the same way, or the connection is lost. -/
theorem run_tied (st : Station) (program : Program)
    (hbegin : (s.begin program).Tied n (s'.begin program)) :
    Compared n (run st Device.recorder.logged program s)
      (run st Device.recorder.logged program s') := by
  have happlied := (run_performAll st Device.recorder.logged program s).2
  have hall := performAll_tied st program 0 hbegin
  unfold run at happlied ⊢
  rcases hleft : performAll st Device.recorder.logged 0 program (s.begin program) with
    ⟨⟨outcome, m⟩, t⟩
  rcases hright : performAll st Device.recorder.logged 0 program (s'.begin program) with
    ⟨⟨outcome', m'⟩, t'⟩
  rw [hleft] at happlied
  rw [hleft, hright] at hall
  rcases hall with ⟨hhalt, htied⟩ | ⟨applied, u, hlost, hle, hsevered⟩
  · obtain ⟨rfl, rfl⟩ := Halt.mk.inj hhalt
    cases outcome with
    | fault fault => exact finish_tied _ _ htied
    | broken b => exact .inl ⟨rfl, htied.rig.device⟩
    | value all =>
      cases all with
      | true => exact conclude_tied st m htied
      | false => exact finish_tied _ _ htied
  · obtain ⟨hhalt, rfl⟩ := Prod.mk.inj hlost
    obtain ⟨rfl, rfl⟩ := Halt.mk.inj hhalt
    refine .inr ⟨⟨_, rfl, rfl, fun whole hwhole => (happlied whole hwhole).symm ▸ hle⟩, ?_⟩
    -- the other run may still park
    cases outcome with
    | fault fault => exact hsevered
    | broken b => exact hsevered
    | value all =>
      cases all with
      | true => exact hsevered.mono (suffix_conclude _ (List.suffix_refl _))
      | false => exact hsevered

/-- The scene with another device. -/
def on {σ τ : Type} (s : Scene σ) (device : τ) : Scene τ where
  rig :=
    { device, stop := s.rig.stop, arm := s.rig.arm, state := s.rig.state
      verbosity := s.rig.verbosity, log := s.rig.log, warnings := s.rig.warnings }
  world := s.world

/-- A run keeps the connection of a device that does not lose it. -/
theorem kept_run (st : Station) (program : Program) (h : Kept s.rig.device) :
    Kept (run st Device.recorder.logged program s).2.rig.device :=
  (st.upholds_all.run (d := Device.recorder.logged) (T := Kept)
    (fun c _ _ hw => (hw.perform c).2.1) (fun _ _ _ => rfl) h trivial).1

/-- The calls that a run records on a new recording device, the earliest first. -/
def recorded {σ : Type} (st : Station) (program : Program) (s : Scene σ)
    (failAfter : Option Nat := none) : List Call :=
  (run st .recorder program (s.on { failAfter })).2.rig.device.calls.toList

/-- **Losing the connection.**  A run on a recording device that loses its connection after `n`
calls records the first `n` calls of the same run on one that keeps it, or all of them.  Either `n`
calls are enough, and both runs are reported alike.  Or the run that loses the connection fails with
the fault of the device, having applied no more statements than the other one, and the calls that it
has tried to make are these `n` and the next one, which fails. -/
theorem run_severed {σ : Type} (st : Station) (program : Program) (s : Scene σ) (n : Nat) :
    recorded st program s (some n) = (recorded st program s).take n ∧
    ((recorded st program s).length ≤ n ∧
        (run st .recorder program (s.on { failAfter := some n })).1 =
          (run st .recorder program (s.on {})).1 ∨
      ∃ c report, (recorded st program s)[n]? = some c ∧
        (run st .recorder program (s.on { failAfter := some n })).1 = .ok report ∧
        report.ending? = some (.failed (.device Recorder.lost)) ∧
        (∀ whole, (run st .recorder program (s.on {})).1 = .ok whole →
          report.applied ≤ whole.applied) ∧
        calls st .recorder program (s.on { failAfter := some n }) =
          ((recorded st program s).take n).map (·, .done) ++ [(c, .failed Recorder.lost)]) := by
  have hnew : Kept (⟨{}, []⟩ : Logged Recorder) := ⟨rfl, rfl⟩
  have hbegin : ((s.on ({} : Recorder)).logged.begin program).Tied n
      ((s.on ({ failAfter := some n } : Recorder)).logged.begin program) := by
    have hfresh : Device.Tied n (s.on ({} : Recorder)).logged.rig.device
        (s.on ({ failAfter := some n } : Recorder)).logged.rig.device :=
      ⟨hnew, Nat.zero_le n, rfl⟩
    have halike : ((s.on ({} : Recorder)).logged.begin program).Alike (Device.Tied n)
        ((s.on ({ failAfter := some n } : Recorder)).logged.begin program) :=
      begin_alike hfresh rfl rfl program
    obtain ⟨hrig, hworld⟩ := halike
    refine ⟨⟨hrig, ?_⟩, hworld⟩
    simp only [begin, say, Rig.stop_say]
    rfl
  have hkept := kept_run st program (s := (s.on ({} : Recorder)).logged) hnew
  have hcompared := run_tied st program hbegin
  unfold recorded calls
  rw [run_logged st .recorder program (s.on ({} : Recorder)),
    run_logged st .recorder program (s.on ({ failAfter := some n } : Recorder))]
  generalize run st Device.recorder.logged program (s.on ({} : Recorder)).logged = x at *
  generalize run st Device.recorder.logged program
    (s.on ({ failAfter := some n } : Recorder)).logged = x' at *
  rcases hcompared with ⟨hreport, htied⟩ | ⟨⟨report, hreport, hending, happlied⟩, hsevered⟩
  · have hcalls : x'.2.rig.device.device.calls = x.2.rig.device.device.calls := by rw [htied.eq]
    have hle : x.2.rig.device.device.calls.toList.length ≤ n := htied.size_le
    refine ⟨?_, .inl ⟨hle, hreport⟩⟩
    simp only [unlogged, Rig.unlogged, hcalls, List.take_of_length_le hle]
  · obtain ⟨hcalls, c, hc, htried⟩ := hsevered.calls_eq hkept
    exact ⟨hcalls, .inr ⟨c, report, hc, hreport, hending, happlied, htried⟩⟩

end Scene

end BlockArm
