/-
# Whole numbers in decimal

A whole number is read as an optional sign and one or more of the ten ASCII digits; leading zeros
are allowed.  It is written without a plus sign and without leading zeros.
-/
namespace BlockArm.Text

/-! ## Writing -/

/-- The decimal form of a whole number. -/
def writeInt : Int → List Char
  | .ofNat n => Nat.toDigits 10 n
  | .negSucc n => '-' :: Nat.toDigits 10 (n + 1)

/-- The decimal form of a natural number, as a string. -/
def natText (n : Nat) : String := String.ofList (Nat.toDigits 10 n)

/-- The decimal form of a 32-bit integer, as a string. -/
def int32Text (n : Int32) : String := String.ofList (writeInt n.toInt)

/-! ## Reading -/

/-- The number written by one or more digits. -/
def readNat? (text : List Char) : Option Nat :=
  if text ≠ [] ∧ text.all Char.isDigit then some (Nat.ofDigitChars 10 text 0) else none

/-- The number written by an optional sign and digits. -/
def readInt? : List Char → Option Int
  | '+' :: text => (readNat? text).map Int.ofNat
  | '-' :: text => (readNat? text).map fun n => -(n : Int)
  | text => (readNat? text).map Int.ofNat

/-- A whole number as a 32-bit integer, if it is in range. -/
def int32? (n : Int) : Option Int32 :=
  if -2147483648 ≤ n ∧ n ≤ 2147483647 then some (Int32.ofInt n) else none

/-- The 32-bit integer that a text writes. -/
def readInt32? (text : List Char) : Option Int32 := (readInt? text).bind int32?

/-- A 32-bit integer is in range. -/
@[simp] theorem int32?_toInt (n : Int32) : int32? n.toInt = some n := by
  have low := n.le_toInt
  have high := n.toInt_lt
  rw [int32?, if_pos (by omega), Int32.ofInt_toInt]

end BlockArm.Text
