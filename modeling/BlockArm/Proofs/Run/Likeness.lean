/-
# Runs on devices that answer alike

What a run does depends on its program, its world, the belief about the arm and the answers of the
device.  On two devices that answer alike, a run therefore ends in the same way.  They need not tell
the same of where the arm is, since only a drive home asks for that.

* `Device.Mimics`: related states answer every call alike, and stay related;
* `Rig.Alike`, `Scene.Alike`: related devices, the same belief, warnings and world;
* `Plan.Keeps.exec_alike`: a plan that does not ask where the arm is keeps rigs alike;
* `Scene.runSource_alike`: runs that begin alike are reported alike.
-/
import BlockArm.Proofs.Run.Lockstep
import BlockArm.Proofs.Run.Upkeep

namespace BlockArm

variable {σ τ α : Type}

/-- States related by `R` answer every call alike and stay related.  They may differ in where they
say that the arm is, and in whether a stop was asked for. -/
def Device.Mimics (d : Device σ) (d' : Device τ) (R : σ → τ → Prop) : Prop :=
  ∀ c s s', R s s' → (d.perform c s).1.answer = (d'.perform c s').1.answer ∧
    R (d.perform c s).2 (d'.perform c s').2

variable {d : Device σ} {d' : Device τ} {R : σ → τ → Prop}

/-! ## Plans -/

namespace Rig

/-- Two rigs on related devices, with the same belief and the same warnings. -/
structure Alike (R : σ → τ → Prop) (r : Rig σ) (r' : Rig τ) : Prop where
  device : R r.device r'.device
  arm : r.arm = r'.arm
  warnings : r.warnings = r'.warnings

variable {r : Rig σ} {r' : Rig τ}

theorem Alike.say (h : r.Alike R r') (level : Level) (text : String) :
    (r.say level text).Alike R (r'.say level text) := by
  constructor <;> simp only [device_say, arm_say, warnings_say]
  · exact h.device
  · exact h.arm
  · exact h.warnings

theorem Alike.warn (h : r.Alike R r') (warning : WristWarning) :
    (r.warn warning).Alike R (r'.warn warning) := by
  have hsay := h.say .warn warning.message
  exact ⟨hsay.device, hsay.arm, congrArg (·.push warning) hsay.warnings⟩

end Rig

/-- A plan that does not ask where the arm is ends in the same way on rigs that are alike, and they
are alike afterwards. -/
theorem Plan.Keeps.exec_alike {bad : Call → Bool} {B : ArmState → Prop} {Q : α → Prop} {p : Plan α}
    (h : p.Keeps False bad B Q) (hmimics : d.Mimics d' R) :
    ∀ {r : Rig σ} {r' : Rig τ}, r.Alike R r' →
      (p.exec d r).1 = (p.exec d' r').1 ∧ (p.exec d r).2.Alike R (p.exec d' r').2 := by
  induction p with
  | done a => exact fun hr => ⟨rfl, hr⟩
  | fail fault => exact fun hr => ⟨rfl, hr⟩
  | broken b => exact fun hr => ⟨rfl, hr⟩
  | call c next ih =>
    intro r r' hr
    obtain ⟨hanswer, hafter⟩ := hmimics c _ _ hr.device
    have hasked : (r.ask d c).2.Alike R (r'.ask d' c).2 := ⟨hafter, hr.arm, hr.warnings⟩
    simp only [Plan.exec, Rig.ask_fst, hanswer]
    cases (d'.perform c r'.device).1.answer with
    | done => exact ih () h.2 hasked
    | failed message => exact ⟨rfl, hasked⟩
    | crashed => exact ⟨rfl, hasked⟩
  | locate next ih => exact h.1.elim
  | believe arm next ih => exact fun hr => ih h.2 ⟨hr.device, rfl, hr.warnings⟩
  | note level text next ih => exact fun hr => ih h (hr.say level text)
  | warn warning next ih => exact fun hr => ih h (hr.warn warning)

/-- All angles are good and all beliefs may be taken down. -/
theorem Station.upholds_all (st : Station) : st.Upholds (fun _ => true) fun _ => True where
  settled _ _ := rfl
  swept _ := rfl
  centered := rfl
  held _ := rfl
  turned _ _ := trivial
  moved _ _ := trivial
  lifted _ _ := trivial
  parked _ := trivial

/-! ## Runs -/

namespace Scene

/-- Two scenes on rigs that are alike, with the same world. -/
structure Alike (R : σ → τ → Prop) (s : Scene σ) (s' : Scene τ) : Prop where
  rig : s.rig.Alike R s'.rig
  world : s.world = s'.world

variable {s : Scene σ} {s' : Scene τ}

theorem Alike.say (h : s.Alike R s') (level : Level) (text : String) :
    (s.say level text).Alike R (s'.say level text) := ⟨h.rig.say level text, h.world⟩

/-- The beginning of a run forgets the warnings of the run before it. -/
theorem begin_alike (hdevice : R s.rig.device s'.rig.device) (harm : s.rig.arm = s'.rig.arm)
    (hworld : s.world = s'.world) (program : Program) :
    (s.begin program).Alike R (s'.begin program) := by
  have hfresh : Alike R { s with rig := { s.rig with state := .running, warnings := #[] } }
      { s' with rig := { s'.rig with state := .running, warnings := #[] } } :=
    ⟨⟨hdevice, harm, rfl⟩, hworld⟩
  unfold begin
  simp only [hworld] at hfresh ⊢
  exact hfresh.say _ _

section Stops

variable {st : Station}

/-- A stop that was asked for before a statement is still asked for in the end. -/
theorem stop_of_performAll {statement : Statement} {rest : Program} {n : Nat}
    (h : (performAll st d n (statement :: rest) s).2.rig.stop = false) : s.rig.stop = false := by
  by_contra hstop
  rw [Bool.not_eq_false] at hstop
  rw [performAll, if_pos hstop] at h
  simp [say, hstop] at h

/-- Parking takes no stop request back. -/
theorem stop_of_conclude {report : Report} (h : (conclude st d report s).2.rig.stop = false) :
    s.rig.stop = false := by
  obtain ⟨-, -, -, asked, hstop, -⟩ := st.park.exec_congr d (rfl : s.rig.device = _) rfl
  unfold conclude at h
  rcases hexec : st.park.exec d s.rig with ⟨outcome, rig⟩
  rw [hexec] at h hstop
  have hrig : rig.stop = false := by
    cases outcome with
    | value u => simpa only [finish, say, Rig.stop_say] using h
    | fault fault => simpa only [finish, say, Rig.stop_say] using h
    | broken b => exact h
  rw [hrig] at hstop
  exact (Bool.or_eq_false_iff.mp hstop.symm).1

/-- Neither does the end of a run. -/
theorem stop_of_run {program : Program} (h : (run st d program s).2.rig.stop = false) :
    (performAll st d 0 program (s.begin program)).2.rig.stop = false := by
  unfold run at h
  rcases hall : performAll st d 0 program (s.begin program) with ⟨⟨outcome, n⟩, t⟩
  rw [hall] at h
  cases outcome with
  | fault fault => exact h
  | broken b => exact h
  | value all =>
    cases all with
    | true => exact stop_of_conclude h
    | false => exact h

end Stops

section Mimicry

variable (st : Station) (hmimics : d.Mimics d' R)

include hmimics

/-- A statement ends in the same way in scenes that are alike. -/
theorem perform_alike (statement : Statement) (h : s.Alike R s') :
    (perform st d statement s).1 = (perform st d' statement s').1 ∧
      (perform st d statement s).2.Alike R (perform st d' statement s').2 := by
  have hkeeps : (st.plan s'.rig.arm statement).Keeps False _ _ _ :=
    Station.keeps_plan st.upholds_all trivial statement fun _ => rfl
  obtain ⟨houtcome, hrig, hworld⟩ := perform_related (R := Rig.Alike R)
    (fun hr => hr.say) h.rig.arm h.world (hkeeps.exec_alike hmimics h.rig)
  exact ⟨houtcome, hrig, hworld⟩

/-- So do any number of statements, unless somebody asks for a stop. -/
theorem performAll_alike (program : Program) :
    ∀ (n : Nat) {s : Scene σ} {s' : Scene τ}, s.Alike R s' →
      (performAll st d n program s).2.rig.stop = false →
      (performAll st d' n program s').2.rig.stop = false →
      (performAll st d n program s).1 = (performAll st d' n program s').1 ∧
        (performAll st d n program s).2.Alike R (performAll st d' n program s').2 := by
  induction program with
  | nil => exact fun _ _ _ h _ _ => ⟨rfl, h⟩
  | cons statement rest ih =>
    intro n s s' h hstop hstop'
    have hquiet := stop_of_performAll hstop
    have hquiet' := stop_of_performAll hstop'
    have hfirst := perform_alike st hmimics statement h
    simp only [performAll, hquiet, hquiet', Bool.false_eq_true, if_false] at hstop hstop' ⊢
    rcases hleft : perform st d statement s with ⟨outcome, after⟩
    rcases hright : perform st d' statement s' with ⟨outcome', after'⟩
    rw [hleft, hright] at hfirst
    rw [hleft] at hstop
    rw [hright] at hstop'
    obtain ⟨houtcome, hafter⟩ := hfirst
    obtain rfl : outcome = outcome' := houtcome
    cases outcome with
    | value u => exact ih (n + 1) hafter hstop hstop'
    | fault fault => exact ⟨rfl, hafter.say _ _⟩
    | broken b => exact ⟨rfl, hafter⟩

omit hmimics in
/-- Runs that end alike are reported alike. -/
theorem finish_alike (state : RunState) (report : Report) (h : s.Alike R s') :
    (finish state report s).1 = (finish state report s').1 ∧
      R (finish state report s).2.rig.device (finish state report s').2.rig.device := by
  refine ⟨?_, h.rig.device⟩
  simp only [finish, h.rig.warnings]

/-- Parking ends in the same way, with the same verdict. -/
theorem conclude_alike (report : Report) (h : s.Alike R s') :
    (conclude st d report s).1 = (conclude st d' report s').1 ∧
      R (conclude st d report s).2.rig.device (conclude st d' report s').2.rig.device := by
  have hkeeps : st.park.Keeps False _ _ _ := Station.keeps_park st.upholds_all
  have hexec := hkeeps.exec_alike hmimics h.rig
  unfold conclude
  rcases hleft : st.park.exec d s.rig with ⟨outcome, rig⟩
  rcases hright : st.park.exec d' s'.rig with ⟨outcome', rig'⟩
  rw [hleft, hright] at hexec
  obtain ⟨houtcome, hrig⟩ := hexec
  obtain rfl : outcome = outcome' := houtcome
  have hafter : Alike R { s with rig } { s' with rig := rig' } := ⟨hrig, h.world⟩
  cases outcome with
  | value u =>
    simp only [h.world] at hafter ⊢
    exact finish_alike _ _ (hafter.say _ _)
  | fault fault => exact finish_alike _ _ (hafter.say _ _)
  | broken b => exact ⟨rfl, hrig.device⟩

variable (s s') (hdevice : R s.rig.device s'.rig.device) (harm : s.rig.arm = s'.rig.arm)
  (hworld : s.world = s'.world)

include hdevice harm hworld

/-- Runs of a program are reported alike, if they begin with the same belief in the same world. -/
theorem run_alike (program : Program) (hstop : (run st d program s).2.rig.stop = false)
    (hstop' : (run st d' program s').2.rig.stop = false) :
    (run st d program s).1 = (run st d' program s').1 ∧
      R (run st d program s).2.rig.device (run st d' program s').2.rig.device := by
  have hall := performAll_alike st hmimics program 0 (begin_alike hdevice harm hworld program)
    (stop_of_run hstop) (stop_of_run hstop')
  unfold run
  rcases hleft : performAll st d 0 program (s.begin program) with ⟨⟨outcome, n⟩, t⟩
  rcases hright : performAll st d' 0 program (s'.begin program) with ⟨⟨outcome', n'⟩, t'⟩
  rw [hleft, hright] at hall
  obtain ⟨hhalt, ht⟩ := hall
  obtain ⟨rfl, rfl⟩ := Halt.mk.inj hhalt
  cases outcome with
  | value all =>
    cases all with
    | true => exact conclude_alike st hmimics _ ht
    | false => exact finish_alike _ _ ht
  | fault fault => exact finish_alike _ _ ht
  | broken b => exact ⟨rfl, ht.rig.device⟩

/-- So are runs of a script, whether it reads or not. -/
theorem runSource_alike (source : List Char)
    (hstop : (runSource st d source s).2.rig.stop = false)
    (hstop' : (runSource st d' source s').2.rig.stop = false) :
    (runSource st d source s).1 = (runSource st d' source s').1 ∧
      R (runSource st d source s).2.rig.device (runSource st d' source s').2.rig.device := by
  have hreject : ∀ fault, (reject fault s).1 = (reject fault s').1 ∧
      R (reject fault s).2.rig.device (reject fault s').2.rig.device := by
    intro fault
    simp only [reject, say, Rig.device_say]
    exact ⟨trivial, hdevice⟩
  unfold runSource at hstop hstop' ⊢
  cases hparse : Script.parse source with
  | error fault => exact hreject fault
  | ok program =>
    rw [hparse] at hstop hstop'
    cases program with
    | nil => exact hreject .emptyScript
    | cons first rest =>
      exact run_alike s s' st hmimics hdevice harm hworld (first :: rest) hstop hstop'

end Mimicry

end Scene

end BlockArm
