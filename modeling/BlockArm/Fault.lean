/-
# What can go wrong

A `Fault` is a cause, not a text: a script that does not read, a place the arm cannot reach, a block
that cannot be taken or put down, a failing device, a configuration that makes no sense.  Each has
one wording (`message`), and those found while reading a script know their line (`line?`).
-/
import BlockArm.Cell
import BlockArm.Command
import BlockArm.Number.Decimal

namespace BlockArm

/-! ## Causes -/

/-- A statement that is not a call with integer arguments. -/
inductive Malformation where
  | noOpening (statement : String)
  | noClosing (statement : String)
  | closingFirst (statement : String)
  | nested (statement : String)
  | trailing (rest : String)
  | noName
  | notInteger (token : String)
  deriving DecidableEq, Repr

/-- An argument that has the right form but no meaning. -/
inductive Misuse where
  | height (z : Int32)
  | diagnosticMode (mode : Int32)
  deriving DecidableEq, Repr

/-- A configuration that is refused. -/
inductive Misconfiguration where
  /-- The document cannot be read at all. -/
  | unreadable
  | edgeLength (edge : Float)
  | radiusRange (low high : Float)
  | shoulder
  | servoRange (low high : Float)
  | tooManyBlocks (challenge : String)
  | blockSides (blockType challenge : String) (width depth : Int32)

/-- Everything that can be reported. -/
inductive Fault where
  | malformed (line : Nat) (cause : Malformation)
  | unknownCommand (line : Nat) (name : String)
  | arity (line : Nat) (verb : Verb) (found : Nat)
  | misuse (line : Nat) (cause : Misuse)
  | emptyScript
  | unreachablePosition (x y : Float)
  | unreachableHeight (z : Float)
  | emptyGrip (cell : Cell)
  | midAirRelease (cell : Cell)
  | cellOccupied (cell : Cell)
  | notHolding
  | gripperBusy
  | unknownChallenge (name : String)
  | unknownBlockType (name : String)
  | device (message : String)
  | misconfigured (cause : Misconfiguration)

/-! ## Limits named in the texts -/

/-- The grid heights that a script may ask for. -/
def lowestHeight : Int32 := 0

/-- The highest of them. -/
def highestHeight : Int32 := 3

/-- The longest side of a block, in cells. -/
def longestSide : Int32 := 16

/-! ## Wordings -/

/-- A text between grave accents. -/
def quoted (text : String) : String := "`" ++ text ++ "`"

/-- The wording of a malformed statement. -/
def Malformation.message : Malformation → String
  | noOpening statement => quoted statement ++ " is missing " ++ quoted "("
  | noClosing statement => quoted statement ++ " is missing " ++ quoted ")"
  | closingFirst statement => quoted ")" ++ " before " ++ quoted "(" ++ " in " ++ quoted statement
  | nested statement => "nested or repeated parentheses in " ++ quoted statement
  | trailing rest => "unexpected " ++ quoted rest ++ " after " ++ quoted ")"
  | noName => "missing command name before " ++ quoted "("
  | notInteger token => quoted token ++ " is not an integer"

/-- The wording of a meaningless argument. -/
def Misuse.message : Misuse → String
  | height z => "height " ++ Text.int32Text z ++ " is outside " ++ Text.int32Text lowestHeight ++
      "..=" ++ Text.int32Text highestHeight
  | diagnosticMode mode => "unknown diagnostic mode " ++ Text.int32Text mode

/-- The wording of a refused configuration.  An unreadable document has none of its own. -/
def Misconfiguration.message : Misconfiguration → String
  | unreadable => ""
  | edgeLength edge => "edge_length must be positive, got " ++ Number.shortest edge
  | radiusRange low high =>
      "radius range " ++ Number.shortest low ++ ".." ++ Number.shortest high ++ " is empty"
  | shoulder => "xy_base_offset must be smaller than max_radius_xy"
  | servoRange low high =>
      "servo_three_limit [" ++ Number.shortest low ++ ", " ++ Number.shortest high ++ "] is inverted"
  | tooManyBlocks challenge => "too many blocks in " ++ quoted challenge
  | blockSides blockType challenge width depth =>
      "block type " ++ quoted blockType ++ " of challenge " ++ quoted challenge ++ " is " ++
      Text.int32Text width ++ " x " ++ Text.int32Text depth ++ " cells, each side must be 1..=" ++
      Text.int32Text longestSide

namespace Fault

/-- The script line of a fault found while reading a script. -/
def line? : Fault → Option Nat
  | malformed line _ => some line
  | unknownCommand line _ => some line
  | arity line .. => some line
  | misuse line _ => some line
  | _ => none

/-- A wording that names its script line. -/
def onLine (line : Nat) (text : String) : String := "line " ++ Text.natText line ++ ": " ++ text

/-- The wording of a fault.  Lengths are given to a tenth of a millimetre. -/
def message : Fault → String
  | malformed line cause => onLine line cause.message
  | unknownCommand line name => onLine line ("unknown command " ++ quoted name)
  | arity line verb found => onLine line (quoted verb.name ++ " takes " ++ verb.arity.describe ++
      " argument(s), got " ++ Text.natText found ++ " (e.g. " ++ verb.sample ++ ")")
  | misuse line cause => onLine line cause.message
  | emptyScript => "no commands given"
  | unreachablePosition x y => "position (" ++ Number.fixed 1 x ++ " mm, " ++ Number.fixed 1 y ++
      " mm) is not reachable by the arm"
  | unreachableHeight z =>
      "height " ++ Number.fixed 1 z ++ " mm is not reachable at this position"
  | emptyGrip cell => "pump activated over empty cell " ++ cell.text
  | midAirRelease cell => "cannot release in mid-air at " ++ cell.text
  | cellOccupied cell => "cell " ++ cell.text ++ " is already occupied"
  | notHolding => "the gripper is not holding a block"
  | gripperBusy => "the gripper is already holding a block"
  | unknownChallenge name => "unknown challenge " ++ quoted name
  | unknownBlockType name => "unknown block type " ++ quoted name
  | device text => "actuator failure: " ++ text
  | misconfigured cause => "invalid configuration: " ++ cause.message

end Fault

end BlockArm
