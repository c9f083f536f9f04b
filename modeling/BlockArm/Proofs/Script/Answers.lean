/-
# The answers to statements

Of several things that are wrong with a statement, one is reported: first that it is no call with
integers, then that nobody knows its name, then how many arguments it has, and last a height out of
range.  Everything else becomes a command.

* `Script.command_cases`: what a function and its arguments come to;
* `Script.Verdict`: the classes of texts;
* `Script.answered_statement`: the answer to every text, class by class.
-/
import BlockArm.Proofs.Script.Grammar
import BlockArm.Proofs.Script.Offsets
import Mathlib.Data.List.Basic

namespace BlockArm

/-! ## Names -/

namespace Verb

/-- The vocabulary has one function of each name. -/
theorem named?_eq_some_iff {name : String} {verb : Verb} :
    named? name = some verb ↔ verb.name = name := by
  constructor
  · intro h
    simpa using List.find?_some h
  · rintro rfl
    exact verb.named?_name

/-- A name that no function has is not found. -/
theorem named?_eq_none_iff {name : String} :
    named? name = none ↔ ∀ verb ∈ all, verb.name ≠ name := by
  rw [named?, List.find?_eq_none]
  simp only [beq_iff_eq, ne_eq]

end Verb

namespace Script

open Text

/-! ## Commands -/

/-- The grid heights that a script may ask for are those from 0 to 3. -/
theorem height_fits_iff (z : Int32) :
    (lowestHeight ≤ z ∧ z ≤ highestHeight) ↔ 0 ≤ z.toInt ∧ z.toInt ≤ 3 := by
  rw [Int32.le_iff_toInt_le, Int32.le_iff_toInt_le]
  rfl

section Commands

variable {line : Nat} {verb : Verb} {ns : List Int32} {c : Command}

/-- As many integers as a function takes are the arguments of a command. -/
theorem exists_command_of_accepts (h : verb.arity.accepts ns.length = true) :
    ∃ c : Command, c.verb = verb ∧ c.arguments = ns := by
  cases verb with
  | move =>
    obtain ⟨x, y, rfl⟩ := List.length_eq_two.mp (beq_iff_eq.mp h)
    exact ⟨.move x y, rfl, rfl⟩
  | lift =>
    obtain ⟨z, rfl⟩ := List.length_eq_one_iff.mp (beq_iff_eq.mp h)
    exact ⟨.lift z, rfl, rfl⟩
  | grip =>
    obtain rfl := List.length_eq_zero_iff.mp (beq_iff_eq.mp h)
    exact ⟨.grip, rfl, rfl⟩
  | release =>
    obtain rfl := List.length_eq_zero_iff.mp (beq_iff_eq.mp h)
    exact ⟨.release, rfl, rfl⟩
  | turn =>
    obtain ⟨degrees, rfl⟩ := List.length_eq_one_iff.mp (beq_iff_eq.mp h)
    exact ⟨.turn degrees, rfl, rfl⟩
  | diagnose => exact ⟨.diagnose ns, rfl, rfl⟩

/-- A command is read back from its function and its arguments. -/
theorem command_verb_arguments (h : c.verb.arity.accepts c.arguments.length = true)
    (hheight : ∀ z, c = .lift z → 0 ≤ z.toInt ∧ z.toInt ≤ 3) :
    command line c.verb c.arguments = .ok c := by
  cases c with
  | move x y => rfl
  | lift z => exact if_pos ((height_fits_iff z).mpr (hheight z rfl))
  | grip => rfl
  | release => rfl
  | turn degrees => rfl
  | diagnose ns =>
    obtain _ | ⟨mode, _ | ⟨second, rest⟩⟩ := ns
    · rfl
    · rfl
    · simp [Command.verb, Command.arguments, Verb.arity] at h

/-- A height out of range is refused. -/
theorem command_lift_eq_error {z : Int32} (h : ¬ (0 ≤ z.toInt ∧ z.toInt ≤ 3)) :
    command line .lift [z] = .error (.misuse line (.height z)) :=
  if_neg (mt (height_fits_iff z).mp h)

/-- Too many or too few integers are refused, whatever they are. -/
theorem command_eq_error_arity (h : verb.arity.accepts ns.length = false) :
    command line verb ns = .error (.arity line verb ns.length) := by
  -- in each case the function refuses this many integers, or it takes them, against what is given
  cases verb <;> rcases ns with _ | ⟨x, _ | ⟨y, _ | ⟨z, rest⟩⟩⟩ <;>
    first | rfl | simp [Verb.arity] at h

/-- What a function and its integers come to: a command, a height out of range, or a wrong number of
integers. -/
theorem command_cases (line : Nat) (verb : Verb) (ns : List Int32) :
    (∃ c : Command, c.verb = verb ∧ c.arguments = ns ∧ verb.arity.accepts ns.length = true ∧
      (∀ z, c = .lift z → 0 ≤ z.toInt ∧ z.toInt ≤ 3) ∧ command line verb ns = .ok c) ∨
    (∃ z, verb = .lift ∧ ns = [z] ∧ ¬ (0 ≤ z.toInt ∧ z.toInt ≤ 3) ∧
      command line verb ns = .error (.misuse line (.height z))) ∨
    (verb.arity.accepts ns.length = false ∧
      command line verb ns = .error (.arity line verb ns.length)) := by
  cases haccepts : verb.arity.accepts ns.length with
  | false => exact .inr (.inr ⟨rfl, command_eq_error_arity haccepts⟩)
  | true =>
    obtain ⟨c, rfl, rfl⟩ := exists_command_of_accepts haccepts
    by_cases hheight : ∀ z, c = .lift z → 0 ≤ z.toInt ∧ z.toInt ≤ 3
    · exact .inl ⟨c, rfl, rfl, rfl, hheight, command_verb_arguments haccepts hheight⟩
    · simp only [not_forall] at hheight
      obtain ⟨z, rfl, hz⟩ := hheight
      exact .inr (.inl ⟨z, rfl, rfl, hz, command_lift_eq_error hz⟩)

end Commands

/-! ## Statements without blanks -/

/-- No call is empty. -/
theorem Calls.ne_nil {text name : List Char} {ns : List Int32} (h : Calls text name ns) :
    text ≠ [] := by
  obtain ⟨inner, hform, -⟩ := h
  rw [hform.text_eq]
  simp

/-- A call of a function of the vocabulary is left to the function. -/
theorem tightStatement_of_verb (line : Nat) {text : List Char} {verb : Verb} {ns : List Int32}
    (h : Calls text verb.name.toList ns) : tightStatement line text = command line verb ns := by
  rw [tightStatement_of_calls line h, String.ofList_toList, Verb.named?_name]

/-- A call of any other name is refused. -/
theorem tightStatement_of_unknown (line : Nat) {text : List Char} {name : String} {ns : List Int32}
    (h : Calls text name.toList ns) (hname : ∀ verb ∈ Verb.all, verb.name ≠ name) :
    tightStatement line text = .error (.unknownCommand line name) := by
  rw [tightStatement_of_calls line h, String.ofList_toList, Verb.named?_eq_none_iff.mpr hname]

/-- The class of a text without blanks, and the answer that is due to it. -/
inductive Verdict (line : Nat) (text : List Char) : Except Fault (Option Command) → Prop
  | blank : text = [] → Verdict line text (.ok none)
  | malformed (cause : Malformation) : text ≠ [] → (¬ ∃ name ns, Calls text name ns) →
      Verdict line text (.error (.malformed line cause))
  | unknown (name : String) (ns : List Int32) : Calls text name.toList ns →
      (∀ verb ∈ Verb.all, verb.name ≠ name) →
      Verdict line text (.error (.unknownCommand line name))
  | arity (verb : Verb) (ns : List Int32) : Calls text verb.name.toList ns →
      verb.arity.accepts ns.length = false →
      Verdict line text (.error (.arity line verb ns.length))
  | misuse (z : Int32) : Calls text Verb.lift.name.toList [z] → ¬ (0 ≤ z.toInt ∧ z.toInt ≤ 3) →
      Verdict line text (.error (.misuse line (.height z)))
  | command (c : Command) : Calls text c.verb.name.toList c.arguments →
      c.verb.arity.accepts c.arguments.length = true →
      (∀ z, c = .lift z → 0 ≤ z.toInt ∧ z.toInt ≤ 3) →
      Verdict line text (.ok (some c))

/-- A text that is not empty belongs to one of the classes but the first. -/
theorem verdict_tightStatement (line : Nat) {text : List Char} (hne : text ≠ []) :
    Verdict line text ((tightStatement line text).map some) := by
  by_cases hcalls : ∃ name ns, Calls text name ns
  case neg =>
    obtain ⟨cause, heq⟩ := tightStatement_of_not_calls line hcalls
    exact heq ▸ .malformed cause hne hcalls
  obtain ⟨name, ns, hcalls⟩ := hcalls
  rw [← String.toList_ofList (l := name)] at hcalls
  cases hnamed : Verb.named? (String.ofList name) with
  | none =>
    have hunknown := Verb.named?_eq_none_iff.mp hnamed
    rw [tightStatement_of_unknown line hcalls hunknown]
    exact .unknown _ ns hcalls hunknown
  | some verb =>
    rw [← Verb.named?_eq_some_iff.mp hnamed] at hcalls
    rw [tightStatement_of_verb line hcalls]
    rcases command_cases line verb ns with ⟨c, rfl, rfl, haccepts, hheight, heq⟩ |
      ⟨z, rfl, rfl, hz, heq⟩ | ⟨haccepts, heq⟩
    · exact heq ▸ .command c hcalls haccepts hheight
    · exact heq ▸ .misuse z hcalls hz
    · exact heq ▸ .arity verb ns hcalls haccepts

/-- A text that is not blank is answered as it is without its blanks. -/
theorem statement_of_ne_nil (line : Nat) {text : List Char} (h : unspaced text ≠ []) :
    statement line text = (tightStatement line (unspaced text)).map some := by
  unfold statement
  generalize unspaced text = tight at h ⊢
  cases tight with
  | nil => contradiction
  | cons c rest => simp only; cases tightStatement line (c :: rest) <;> rfl

/-- Every text, with its blanks removed, belongs to one of the classes. -/
theorem verdict_statement (line : Nat) (text : List Char) :
    Verdict line (unspaced text) (statement line text) := by
  by_cases hnil : unspaced text = []
  case pos =>
    have hnone : statement line text = .ok none := by simp [statement, hnil]
    exact hnone ▸ .blank hnil
  rw [statement_of_ne_nil line hnil]
  exact verdict_tightStatement line hnil

/-! ## The answer to a statement -/

/-- What the grammar says of the answer to a text without blanks. -/
structure Answered (line : Nat) (text : List Char) (answer : Except Fault (Option Command)) :
    Prop where
  /-- Only the empty text is no statement. -/
  blank_iff : answer = .ok none ↔ text = []
  /-- A text that is not empty and calls nothing with integers is malformed. -/
  malformed_iff : (∃ cause, answer = .error (.malformed line cause)) ↔
    text ≠ [] ∧ ¬ ∃ name ns, Calls text name ns
  /-- A call must name a function of the vocabulary. -/
  unknown_iff : ∀ name, answer = .error (.unknownCommand line name) ↔
    (∃ ns, Calls text name.toList ns) ∧ ∀ verb ∈ Verb.all, verb.name ≠ name
  /-- It must have as many arguments as the function takes. -/
  arity_iff : ∀ verb count, answer = .error (.arity line verb count) ↔
    verb.arity.accepts count = false ∧ ∃ ns, Calls text verb.name.toList ns ∧ ns.length = count
  /-- A height must be in range. -/
  misuse_iff : ∀ cause, answer = .error (.misuse line cause) ↔
    ∃ z, Calls text Verb.lift.name.toList [z] ∧ ¬ (0 ≤ z.toInt ∧ z.toInt ≤ 3) ∧ cause = .height z
  /-- All other calls become the command of their function with their arguments. -/
  command_iff : ∀ c : Command, answer = .ok (some c) ↔
    Calls text c.verb.name.toList c.arguments ∧
      c.verb.arity.accepts c.arguments.length = true ∧
      ∀ z, c = .lift z → 0 ≤ z.toInt ∧ z.toInt ≤ 3
  /-- Every fault is reported on its line. -/
  line_of_error : ∀ fault, answer = .error fault → fault.line? = some line

/-- **The answer to a statement.**  For every text and line, with the blanks of the text removed:
the answer is as the grammar says, every fault is reported on the line, and reading the text by byte
offsets comes to the same answer without a slice or an index out of bounds. -/
theorem answered_statement (line : Nat) (text : List Char) :
    Answered line (unspaced text) (statement line text) ∧
      statementByOffset line text = some (statement line text) := by
  refine ⟨?_, statementByOffset_eq line text⟩
  -- forwards, only one class has an answer of the form; backwards, the call is read
  have hverdict := verdict_statement line text
  constructor
  case blank_iff =>
    constructor
    · intro h
      rw [h] at hverdict
      cases hverdict with
      | blank hnil => exact hnil
    · intro hnil
      simp [statement, hnil]
  case malformed_iff =>
    constructor
    · rintro ⟨cause, h⟩
      rw [h] at hverdict
      cases hverdict with
      | malformed _ hne hnot => exact ⟨hne, hnot⟩
    · rintro ⟨hne, hnot⟩
      generalize hanswer : statement line text = answer at hverdict ⊢
      cases hverdict with
      | blank hnil => exact absurd hnil hne
      | malformed cause => exact ⟨cause, rfl⟩
      | unknown _ _ hcalls => exact absurd ⟨_, _, hcalls⟩ hnot
      | arity _ _ hcalls => exact absurd ⟨_, _, hcalls⟩ hnot
      | misuse _ hcalls => exact absurd ⟨_, _, hcalls⟩ hnot
      | command _ hcalls => exact absurd ⟨_, _, hcalls⟩ hnot
  case unknown_iff =>
    intro name
    constructor
    · intro h
      rw [h] at hverdict
      cases hverdict with
      | unknown _ ns hcalls hname => exact ⟨⟨ns, hcalls⟩, hname⟩
    · rintro ⟨⟨ns, hcalls⟩, hname⟩
      rw [statement_of_ne_nil line hcalls.ne_nil, tightStatement_of_unknown line hcalls hname]
      rfl
  case arity_iff =>
    intro verb count
    constructor
    · intro h
      rw [h] at hverdict
      cases hverdict with
      | arity _ ns hcalls haccepts => exact ⟨haccepts, ns, hcalls, rfl⟩
    · rintro ⟨haccepts, ns, hcalls, rfl⟩
      rw [statement_of_ne_nil line hcalls.ne_nil, tightStatement_of_verb line hcalls,
        command_eq_error_arity haccepts]
      rfl
  case misuse_iff =>
    intro cause
    constructor
    · intro h
      rw [h] at hverdict
      cases hverdict with
      | misuse z hcalls hz => exact ⟨z, hcalls, hz, rfl⟩
    · rintro ⟨z, hcalls, hz, rfl⟩
      rw [statement_of_ne_nil line hcalls.ne_nil, tightStatement_of_verb line hcalls,
        command_lift_eq_error hz]
      rfl
  case command_iff =>
    intro c
    constructor
    · intro h
      rw [h] at hverdict
      cases hverdict with
      | command _ hcalls haccepts hheight => exact ⟨hcalls, haccepts, hheight⟩
    · rintro ⟨hcalls, haccepts, hheight⟩
      rw [statement_of_ne_nil line hcalls.ne_nil, tightStatement_of_verb line hcalls,
        command_verb_arguments haccepts hheight]
      rfl
  case line_of_error =>
    intro fault h
    rw [h] at hverdict
    cases hverdict <;> rfl

/-- Signs, leading zeros and blanks inside names and numbers are all the same to a statement. -/
example : statement 3 "ho ehe( +0 03 )".toList = .ok (some (.lift 3)) := by rfl

end Script

end BlockArm
