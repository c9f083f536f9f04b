/-
# Commands and their vocabulary

A script calls six functions by name.  `Verb` lists them with what the vocabulary says about each:
its name, how many arguments it takes, and an example call for the error text.  A `Command` is a
call whose arguments have been checked.
-/
import BlockArm.Text.Whole

namespace BlockArm

/-! ## Argument counts -/

/-- How many arguments a function takes. -/
inductive Arity where
  | exactly (count : Nat)
  | atMost (count : Nat)
  deriving DecidableEq, Repr

namespace Arity

/-- Whether a call with `count` arguments fits. -/
def accepts : Arity → Nat → Bool
  | exactly n, count => count == n
  | atMost n, count => count ≤ n

/-- The argument count in words. -/
def describe : Arity → String
  | exactly 0 => "no"
  | exactly 1 => "exactly one"
  | exactly 2 => "exactly two"
  | exactly _ => "a fixed number of"
  | atMost 1 => "zero or one"
  | atMost _ => "a bounded number of"

@[simp] theorem accepts_exactly (n count : Nat) : (exactly n).accepts count = (count == n) := rfl

@[simp] theorem accepts_atMost (n count : Nat) : (atMost n).accepts count = decide (count ≤ n) := rfl

end Arity

/-! ## The vocabulary -/

/-- What a script function does. -/
inductive Verb where
  | move
  | lift
  | grip
  | release
  | turn
  | diagnose
  deriving DecidableEq, Repr

namespace Verb

/-- The name that calls the function; case matters. -/
def name : Verb → String
  | move => "position"
  | lift => "hoehe"
  | grip => "pumpe_an"
  | release => "pumpe_aus"
  | turn => "drehen"
  | diagnose => "diagnose"

/-- How many arguments the function takes. -/
def arity : Verb → Arity
  | move => .exactly 2
  | lift => .exactly 1
  | grip => .exactly 0
  | release => .exactly 0
  | turn => .exactly 1
  | diagnose => .atMost 1

/-- A call that is shown when the count is wrong. -/
def sample : Verb → String
  | move => "position(5, 5)"
  | lift => "hoehe(2)"
  | grip => "pumpe_an()"
  | release => "pumpe_aus()"
  | turn => "drehen(90)"
  | diagnose => "diagnose(0)"

/-- Every function a script may call. -/
def all : List Verb := [move, lift, grip, release, turn, diagnose]

/-- The function with a given name. -/
def named? (name : String) : Option Verb := all.find? (·.name == name)

/-- A function is found under its own name. -/
@[simp] theorem named?_name (v : Verb) : named? v.name = some v := by cases v <;> decide

end Verb

/-! ## Commands -/

/-- One arm command, its arguments checked. -/
inductive Command where
  /-- Move above the cell `(x, y)` at the current height. -/
  | move (x y : Int32)
  /-- Change to the grid height `z`. -/
  | lift (z : Int32)
  /-- Switch the pump on and pick up what is below. -/
  | grip
  /-- Switch the pump off and put the held block down. -/
  | release
  /-- Turn the wrist by an angle in degrees. -/
  | turn (degrees : Int32)
  /-- Test the hardware; the blocks stay where they are. -/
  | diagnose (arguments : List Int32)
  deriving DecidableEq, Repr

namespace Command

/-- The function that a command calls. -/
def verb : Command → Verb
  | move .. => .move
  | lift _ => .lift
  | grip => .grip
  | release => .release
  | turn _ => .turn
  | diagnose _ => .diagnose

/-- The arguments of the call. -/
def arguments : Command → List Int32
  | move x y => [x, y]
  | lift z => [z]
  | grip => []
  | release => []
  | turn degrees => [degrees]
  | diagnose arguments => arguments

/-- A list of numbers separated by commas. -/
def listed (numbers : List Int32) : String := ", ".intercalate (numbers.map Text.int32Text)

/-- A command as the log shows it, each argument with its name. -/
def describe : Command → String
  | move x y => "MoveXY \x7b x: " ++ Text.int32Text x ++ ", y: " ++ Text.int32Text y ++ " \x7d"
  | lift z => "MoveZ \x7b z: " ++ Text.int32Text z ++ " \x7d"
  | grip => "PumpOn"
  | release => "PumpOff"
  | turn degrees => "RotateWrist \x7b degrees: " ++ Text.int32Text degrees ++ " \x7d"
  | diagnose arguments => "Diagnostic \x7b args: [" ++ listed arguments ++ "] \x7d"

end Command

/-- A command and the script line it stands on, counted from one. -/
structure Statement where
  line : Nat
  command : Command
  deriving DecidableEq, Repr

/-- The statements of a script, in order. -/
abbrev Program := List Statement

end BlockArm
