/-
# Reading scripts

A script holds calls `name(argument, …)` with integer arguments, one a line or several separated by
semicolons.  Blanks are ignored everywhere, empty statements are skipped, and the first bad
statement is the answer for the whole script.

* `Script.call` finds the name and the argument texts of a statement.
* `Script.statement` reads one statement, `Script.parse` a whole script.
-/
import BlockArm.Fault
import BlockArm.Text.Blank
import BlockArm.Text.Pieces

namespace BlockArm.Script

open Text

/-! ## The form of a call -/

/-- A call with its arguments not yet read. -/
structure Call where
  name : List Char
  arguments : List (List Char)
  deriving DecidableEq, Repr

/-- The part of a text before the first `mark` and the part after it. -/
def cutAt? (mark : Char) (text : List Char) : Option (List Char × List Char) :=
  if mark ∈ text then some (text.takeWhile (· != mark), (text.dropWhile (· != mark)).tail) else none

/-- A text is cut at its first mark. -/
theorem cutAt?_eq_some_iff {mark : Char} {text before after : List Char} :
    cutAt? mark text = some (before, after) ↔ text = before ++ mark :: after ∧ mark ∉ before := by
  have hcut : ∀ s t : List Char, mark ∉ s → cutAt? mark (s ++ mark :: t) = some (s, t) := by
    intro s t hs
    have hother : ∀ c ∈ s, (c != mark) = true := by
      intro c hc
      rw [bne_iff_ne]
      rintro rfl
      exact hs hc
    rw [cutAt?, if_pos (by simp), List.takeWhile_append_of_pos hother,
      List.dropWhile_append_of_pos hother]
    simp
  constructor
  · intro h
    by_cases hmem : mark ∈ text
    case neg =>
      rw [cutAt?, if_neg hmem] at h
      simp at h
    obtain ⟨s, t, rfl, hs⟩ := List.eq_append_cons_of_mem hmem
    rw [hcut s t hs] at h
    obtain ⟨rfl, rfl⟩ := Prod.mk.inj (Option.some.inj h)
    exact ⟨rfl, hs⟩
  · rintro ⟨rfl, hbefore⟩
    exact hcut before after hbefore

/-- A text without the mark is not cut. -/
theorem cutAt?_of_notMem {mark : Char} {text : List Char} (h : mark ∉ text) :
    cutAt? mark text = none := by
  rw [cutAt?, if_neg h]

/-- The argument texts between the parentheses; nothing at all is no argument. -/
def argumentTexts (inner : List Char) : List (List Char) :=
  if inner = [] then [] else pieces ',' inner

/-- The form of a statement without blanks: a name and one pair of parentheses at the end.  Of
several things that are wrong, the first in this order is reported. -/
def call (text : List Char) : Except Malformation Call :=
  match cutAt? '(' text with
  | none => .error (.noOpening (String.ofList text))
  | some (name, rest) =>
    if ')' ∉ text then .error (.noClosing (String.ofList text))
    else match cutAt? ')' rest with
      | none => .error (.closingFirst (String.ofList text))
      | some (inner, after) =>
        if '(' ∈ rest ∨ 1 < text.count ')' then .error (.nested (String.ofList text))
        else if after ≠ [] then .error (.trailing (String.ofList after))
        else if name = [] then .error .noName
        else .ok ⟨name, argumentTexts inner⟩

/-! ## Statements -/

/-- The integers that the argument texts write. -/
def integers : List (List Char) → Except Malformation (List Int32)
  | [] => .ok []
  | token :: tokens =>
    match readInt32? token with
    | none => .error (.notInteger (String.ofList token))
    | some n => match integers tokens with
      | .error cause => .error cause
      | .ok ns => .ok (n :: ns)

/-- The command of a function and its arguments. -/
def command (line : Nat) (verb : Verb) (arguments : List Int32) : Except Fault Command :=
  match verb, arguments with
  | .move, [x, y] => .ok (.move x y)
  | .lift, [z] =>
    if lowestHeight ≤ z ∧ z ≤ highestHeight then .ok (.lift z) else .error (.misuse line (.height z))
  | .grip, [] => .ok .grip
  | .release, [] => .ok .release
  | .turn, [degrees] => .ok (.turn degrees)
  | .diagnose, [] => .ok (.diagnose [])
  | .diagnose, [mode] => .ok (.diagnose [mode])
  | verb, arguments => .error (.arity line verb arguments.length)

/-- The command of a statement without blanks. -/
def tightStatement (line : Nat) (text : List Char) : Except Fault Command :=
  match call text with
  | .error cause => .error (.malformed line cause)
  | .ok c => match integers c.arguments with
    | .error cause => .error (.malformed line cause)
    | .ok ns =>
      let name := String.ofList c.name
      match Verb.named? name with
      | none => .error (.unknownCommand line name)
      | some verb => command line verb ns

/-- The command of a statement, if it is not blank. -/
def statement (line : Nat) (text : List Char) : Except Fault (Option Command) :=
  match unspaced text with
  | [] => .ok none
  | c :: rest => match tightStatement line (c :: rest) with
    | .error fault => .error fault
    | .ok command => .ok (some command)

/-! ## Whole scripts -/

/-- The statements of one line. -/
def statements (line : Nat) : List (List Char) → Except Fault Program
  | [] => .ok []
  | text :: texts => match statement line text with
    | .error fault => .error fault
    | .ok found => match statements line texts with
      | .error fault => .error fault
      | .ok rest => .ok ((found.map (Statement.mk line)).toList ++ rest)

/-- The statements of the lines from number `line` on. -/
def lines (line : Nat) : List (List Char) → Except Fault Program
  | [] => .ok []
  | text :: texts => match statements line (pieces ';' text) with
    | .error fault => .error fault
    | .ok here => match lines (line + 1) texts with
      | .error fault => .error fault
      | .ok rest => .ok (here ++ rest)

/-- The program of a script.  A script of blanks is an empty program. -/
def parse (source : List Char) : Except Fault Program := lines 1 (pieces '\n' source)

end BlockArm.Script
