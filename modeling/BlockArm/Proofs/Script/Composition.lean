/-
# Scripts that are read in parts

A script that is cut at a semicolon or at the end of a line can be read part by part.  The first
part that does not read is the answer for the whole; if all of them read, the whole is their
statements in order.  The parts after the first only have to count their lines from where they begin.

* `Fault.later`, `Script.later`: an answer some lines further down;
* `Script.followed`: the answer for two parts, one after the other;
* `Script.lines_append`, `Script.lines_later`: lines are read one after the other, wherever they are;
* `Script.parse_append_separator`: so are the parts of a script, and every fault has its line.
-/
import BlockArm.Proofs.Script.Answers
import BlockArm.Proofs.Text.Pieces

namespace BlockArm

/-! ## Answers further down -/

/-- A fault some lines further down. -/
def Fault.later (n : Nat) : Fault → Fault
  | malformed line cause => malformed (line + n) cause
  | unknownCommand line name => unknownCommand (line + n) name
  | arity line verb found => arity (line + n) verb found
  | misuse line cause => misuse (line + n) cause
  | fault => fault

/-- The line of the fault is that much further down. -/
@[simp] theorem Fault.line?_later (n : Nat) (fault : Fault) :
    (fault.later n).line? = fault.line?.map (· + n) := by
  cases fault <;> rfl

/-- A statement some lines further down. -/
def Statement.later (n : Nat) (s : Statement) : Statement := { s with line := s.line + n }

/-! ## Answers for two parts -/

namespace Script

open Text

/-- An answer some lines further down. -/
def later (n : Nat) : Except Fault Program → Except Fault Program
  | .error fault => .error (fault.later n)
  | .ok program => .ok (program.map (·.later n))

/-- The answer for two parts of a script: the first fault, or the statements of both. -/
def followed (first next : Except Fault Program) : Except Fault Program :=
  match first, next with
  | .error fault, _ => .error fault
  | .ok _, .error fault => .error fault
  | .ok p, .ok q => .ok (p ++ q)

/-- Nothing comes before the first part. -/
@[simp] theorem followed_ok_nil (next : Except Fault Program) : followed (.ok []) next = next := by
  cases next <;> rfl

/-- Nothing comes after the last part. -/
@[simp] theorem followed_ok_nil_right (first : Except Fault Program) :
    followed first (.ok []) = first := by
  cases first <;> simp [followed]

/-- It does not matter which parts are put together first. -/
theorem followed_assoc (a b c : Except Fault Program) :
    followed (followed a b) c = followed a (followed b c) := by
  cases a with
  | error fault => rfl
  | ok p =>
    cases b with
    | error fault => rfl
    | ok q => cases c <;> simp [followed]

/-- Both parts can be moved down. -/
theorem later_followed (n : Nat) (a b : Except Fault Program) :
    later n (followed a b) = followed (later n a) (later n b) := by
  cases a with
  | error fault => rfl
  | ok p => cases b <;> simp [followed, later]

/-! ## Statements -/

/-- The answer to one text, as statements of its line. -/
def single (line : Nat) (text : List Char) : Except Fault Program :=
  (statement line text).map fun found => (found.map (Statement.mk line)).toList

/-- The texts of a line are read one after the other. -/
theorem statements_cons (line : Nat) (text : List Char) (texts : List (List Char)) :
    statements line (text :: texts) = followed (single line text) (statements line texts) := by
  rw [statements, single]
  cases statement line text with
  | error fault => rfl
  | ok found => cases statements line texts <;> rfl

theorem statements_append (line : Nat) (xs ys : List (List Char)) :
    statements line (xs ++ ys) = followed (statements line xs) (statements line ys) := by
  induction xs with
  | nil => exact (followed_ok_nil _).symm
  | cons x xs ih => rw [List.cons_append, statements_cons, ih, statements_cons, followed_assoc]

/-- A command does not depend on its line, only the fault does. -/
theorem command_later (line n : Nat) (verb : Verb) (ns : List Int32) :
    command (line + n) verb ns = (command line verb ns).mapError (Fault.later n) := by
  rcases command_cases line verb ns with ⟨c, rfl, rfl, haccepts, hheight, heq⟩ |
    ⟨z, rfl, rfl, hz, heq⟩ | ⟨haccepts, heq⟩
  · rw [heq, command_verb_arguments haccepts hheight]
    rfl
  · rw [heq, command_lift_eq_error hz]
    rfl
  · rw [heq, command_eq_error_arity haccepts]
    rfl

theorem tightStatement_later (line n : Nat) (text : List Char) :
    tightStatement (line + n) text = (tightStatement line text).mapError (Fault.later n) := by
  unfold tightStatement
  split
  · rfl
  · split
    · rfl
    · dsimp only
      split
      · rfl
      · exact command_later line n _ _

theorem single_later (line n : Nat) (text : List Char) :
    single (line + n) text = later n (single line text) := by
  unfold single statement
  split
  · rfl
  · rw [tightStatement_later]
    cases tightStatement line _ <;> rfl

theorem statements_later (line n : Nat) (texts : List (List Char)) :
    statements (line + n) texts = later n (statements line texts) := by
  induction texts with
  | nil => rfl
  | cons text texts ih => rw [statements_cons, ih, single_later, statements_cons, later_followed]

/-! ## Lines -/

theorem lines_cons (line : Nat) (text : List Char) (texts : List (List Char)) :
    lines line (text :: texts) =
      followed (statements line (pieces ';' text)) (lines (line + 1) texts) := by
  rw [lines]
  cases statements line (pieces ';' text) with
  | error fault => rfl
  | ok here => cases lines (line + 1) texts <;> rfl

/-- Lines are read one after the other. -/
theorem lines_append (xs ys : List (List Char)) : ∀ line : Nat,
    lines line (xs ++ ys) = followed (lines line xs) (lines (line + xs.length) ys) := by
  induction xs with
  | nil => exact fun line => (followed_ok_nil _).symm
  | cons x xs ih =>
    intro line
    have hline : line + 1 + xs.length = line + (x :: xs).length := by
      rw [List.length_cons]
      omega
    rw [List.cons_append, lines_cons, ih, lines_cons, followed_assoc, hline]

/-- Lines are read the same way wherever they are. -/
theorem lines_later (n : Nat) (texts : List (List Char)) : ∀ line : Nat,
    lines (line + n) texts = later n (lines line texts) := by
  induction texts with
  | nil => exact fun line => rfl
  | cons text texts ih =>
    intro line
    rw [lines_cons, lines_cons, statements_later, later_followed, ← ih,
      show line + n + 1 = line + 1 + n by omega]

/-- Lines that meet at a semicolon are read as if the one ended where the other begins. -/
theorem lines_meet (front back : List (List Char)) (last first : List Char) (line : Nat) :
    lines line (front ++ (last ++ ';' :: first) :: back) =
      followed (lines line (front ++ [last])) (lines (line + front.length) (first :: back)) := by
  rw [lines_append, lines_append, lines_cons, lines_cons, lines_cons, pieces_append_self,
    statements_append, lines, followed_ok_nil_right]
  simp only [followed_assoc]

/-! ## Faults have lines -/

theorem line_of_single_error {line : Nat} {text : List Char} {fault : Fault}
    (h : single line text = .error fault) : fault.line? = some line := by
  have hverdict := verdict_statement line text
  unfold single at h
  cases hanswer : statement line text with
  | ok found =>
    rw [hanswer] at h
    exact absurd h (by simp [Except.map])
  | error cause =>
    rw [hanswer] at h hverdict
    obtain rfl := Except.error.inj h
    cases hverdict <;> rfl

/-- What two parts come to is a fault just if one of them is. -/
theorem followed_eq_error {a b : Except Fault Program} {fault : Fault}
    (h : followed a b = .error fault) : a = .error fault ∨ b = .error fault := by
  cases a with
  | error cause => exact .inl h
  | ok p =>
    cases b with
    | error cause => exact .inr h
    | ok q => exact absurd h (by simp [followed])

theorem line_of_statements_error {line : Nat} {fault : Fault} (texts : List (List Char))
    (h : statements line texts = .error fault) : fault.line? = some line := by
  induction texts with
  | nil => exact absurd h (by simp [statements])
  | cons text texts ih =>
    rw [statements_cons] at h
    exact (followed_eq_error h).elim line_of_single_error ih

/-- A fault in some lines is on one of them. -/
theorem line_of_lines_error {fault : Fault} (texts : List (List Char)) : ∀ {line : Nat},
    lines line texts = .error fault →
      ∃ k, fault.line? = some k ∧ line ≤ k ∧ k < line + texts.length := by
  induction texts with
  | nil => exact fun h => absurd h (by simp [lines])
  | cons text texts ih =>
    intro line h
    rw [lines_cons] at h
    rw [List.length_cons]
    rcases followed_eq_error h with h | h
    · exact ⟨line, line_of_statements_error _ h, by omega, by omega⟩
    · obtain ⟨k, hk, hlow, hhigh⟩ := ih h
      exact ⟨k, hk, by omega, by omega⟩

/-! ## Scripts -/

/-- **Scripts are read in parts.**  A script that is cut at a semicolon or at the end of a line
comes to the fault of the first part, if that does not read; else to the fault of the second part,
further down by the lines of the first; else to the statements of both, those of the second further
down as well.  Every fault is on a line of the script. -/
theorem parse_append_separator (s t : List Char) :
    parse (s ++ ';' :: t) = followed (parse s) (later (s.count '\n') (parse t)) ∧
    parse (s ++ '\n' :: t) = followed (parse s) (later (s.count '\n' + 1) (parse t)) ∧
    ∀ fault, parse s = .error fault →
      ∃ line, fault.line? = some line ∧ 1 ≤ line ∧ line ≤ s.count '\n' + 1 := by
  have hlength := length_pieces '\n' s
  refine ⟨?_, ?_, fun fault h => ?_⟩
  · -- the last line of the one part and the first line of the other become one line
    obtain ⟨front, last, hs⟩ :=
      (pieces '\n' s).eq_nil_or_concat'.resolve_left (pieces_ne_nil '\n' s)
    obtain ⟨first, back, ht⟩ := List.exists_cons_of_ne_nil (pieces_ne_nil '\n' t)
    have hcut : pieces '\n' (s ++ ';' :: t) = front ++ (last ++ ';' :: first) :: back := by
      refine pieces_append ?_ s _ _ hs
      rw [pieces, if_neg (by decide), ht]
    have hfront : front.length = s.count '\n' := by
      rw [hs, List.length_append, List.length_singleton] at hlength
      omega
    rw [parse, parse, parse, hcut, lines_meet, ← lines_later, hs, ht, hfront]
  · rw [parse, parse, parse, pieces_append_self, lines_append, ← lines_later, hlength]
  · obtain ⟨line, hline, hlow, hhigh⟩ := line_of_lines_error _ h
    exact ⟨line, hline, hlow, by omega⟩

/-- Blank texts and lines count as lines, however these end. -/
example : parse "hoehe(1);\r\n\r\ndrehen(9".toList =
    .error (.malformed 3 (.noClosing "drehen(9")) := by rfl

end Script

end BlockArm
