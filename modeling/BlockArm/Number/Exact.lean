/-
# The exact value of a binary number

A finite double is `± m · 2 ^ e` for a natural `m` and an integer `e`, so everything that is
printed, compared or rounded here can be computed on natural numbers without any error.  This file
holds that reading (`magnitude`), the whole number nearest to a quotient (`nearest`) with the two
ways a half can go, and the double nearest to an exact value (`ofExact`).
-/
namespace BlockArm.Number

/-! ## Powers -/

/-- The power `2 ^ n`. -/
def twoTo (n : Nat) : Nat := Nat.pow 2 n

/-- The power `10 ^ n`. -/
def tenTo (n : Nat) : Nat := Nat.pow 10 n

/-- A power of two is positive. -/
theorem twoTo_pos (n : Nat) : 0 < twoTo n := Nat.pow_pos (by decide)

/-! ## Quotients -/

/-- Where a value halfway between two whole numbers goes. -/
inductive Tie where
  | toEven
  | awayFromZero
  deriving DecidableEq, Repr

/-- The whole number nearest to `num / den`. -/
def nearest (tie : Tie) (num den : Nat) : Nat :=
  let below := num / den
  let twice := 2 * (num % den)
  if twice < den then below
  else if den < twice then below + 1
  else match tie with
    | .toEven => below + below % 2
    | .awayFromZero => below + 1

/-- A whole number is nearest to itself. -/
@[simp] theorem nearest_mul_self (tie : Tie) (n den : Nat) (h : 0 < den) :
    nearest tie (n * den) den = n := by
  simp [nearest, Nat.mul_div_cancel _ h, h]

/-! ## Doubles -/

/-- The fraction `num / den`. -/
structure Fraction where
  num : Nat
  den : Nat

/-- `m · 2 ^ e` as a fraction. -/
def Fraction.ofBinary (m : Nat) (e : Int) : Fraction :=
  ⟨m * twoTo e.toNat, twoTo (-e).toNat⟩

/-- What a double stands for: nothing, an infinity, or a signed fraction.  The sign of a zero is
kept, since it is printed. -/
inductive Reading where
  | notANumber
  | infinite (negative : Bool)
  | finite (negative : Bool) (magnitude : Fraction)

/-- A sign as a truth value. -/
def isNegative : Float.Model.UnpackedFloat.Sign → Bool
  | .positive => false
  | .negative => true

/-- The exact value of a double. -/
def read (x : Float) : Reading :=
  match x.toModel.unpack with
  | .notANumber => .notANumber
  | .infinity s => .infinite (isNegative s)
  | .zero s => .finite (isNegative s) ⟨0, 1⟩
  | .finite s m e _ => .finite (isNegative s) (.ofBinary m e)

/-- The double nearest to `m · 2 ^ e`, ties to even; a zero takes the sign `zeroSign`. -/
def ofExact (m : Int) (e : Int) (zeroSign : Float.Model.UnpackedFloat.Sign) : Float :=
  Float.ofModel (Float.Model.pack
    (Float.Model.UnpackedFloat.normalize Float.Model.Format.binary64 m e zeroSign))

/-- The double that stands for no number. -/
def notANumber : Float := Float.ofModel (Float.Model.pack .notANumber)

/-- The double above every number. -/
def infinity : Float := Float.ofModel (Float.Model.pack (.infinity .positive))

/-! ## Whole numbers in 32 bits -/

/-- The whole number nearest to `x` as a 32-bit integer.  A half goes away from zero, a value out
of range to the nearest end of the range, and what is no number to zero. -/
def nearestInt32 (x : Float) : Int32 :=
  match read x with
  | .notANumber => 0
  | .infinite true => Int32.minValue
  | .infinite false => Int32.maxValue
  | .finite true q => Int32.ofIntClamp (-(nearest .awayFromZero q.num q.den : Int))
  | .finite false q => Int32.ofIntClamp (nearest .awayFromZero q.num q.den)

/-- A 32-bit integer as a double, without loss. -/
def ofInt32 (n : Int32) : Float := Float.ofInt n.toInt

end BlockArm.Number
