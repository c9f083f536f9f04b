/-
# Lengths and remainders

`length x y` is `√(x² + y²)` to within a unit in the last place: a root in double precision, corrected
once, with the components scaled where their squares would overflow or underflow.  `remainder x n`
is `x` modulo a positive whole number, which a double can always hold exactly, moved into `[0, n]`.
-/
import BlockArm.Number.Exact

namespace BlockArm.Number

/-! ## Lengths -/

/-- The factor by which components are scaled whose squares would leave the range. -/
def lengthScale : Float := ofExact 1 (-600) .positive

/-- Squares of numbers up to this one stay in range. -/
def lengthHigh : Float := ofExact 1 511 .positive

/-- Squares of numbers from this one on keep their precision. -/
def lengthLow : Float := ofExact 1 (-459) .positive

/-- A component that is this small a part of the other one does not change the length. -/
def lengthSlack : Float := ofExact 1 (-54) .positive

/-- The excess `h² - x² - y²` of an `h` near the length, for `0 ≤ y ≤ x`.  It is computed from the
small difference between `h` and the component nearer to it, so that little of it is lost. -/
def lengthExcess (x y h : Float) : Float :=
  if h ≤ 2 * y then
    let d := h - y
    x * (2 * d - x) + (d - 2 * (x - y)) * d
  else
    let d := h - x
    2 * d * (x - 2 * y) + ((4 * d - y) * y + d * d)

/-- The root of `x² + y²` for `0 ≤ y ≤ x`, corrected once by the excess of the first root. -/
def correctedRoot (x y : Float) : Float :=
  let h := (x * x + y * y).sqrt
  h - lengthExcess x y h / (2 * h)

/-- The length of `(x, y)` for `0 ≤ y ≤ x`, both finite. -/
def orderedLength (x y : Float) : Float :=
  if lengthHigh < x then
    if y ≤ x * lengthSlack then x + y
    else correctedRoot (x * lengthScale) (y * lengthScale) / lengthScale
  else if y < lengthLow then
    if y / lengthSlack ≤ x then x + y
    else correctedRoot (x / lengthScale) (y / lengthScale) * lengthScale
  else if y ≤ x * lengthSlack then x + y
  else correctedRoot x y

/-- The length of the vector `(x, y)`.  An infinite component makes it infinite, whatever the other
one is. -/
def length (x y : Float) : Float :=
  if x.isFinite && y.isFinite then
    if x.abs < y.abs then orderedLength y.abs x.abs else orderedLength x.abs y.abs
  else if x.isInf || y.isInf then infinity
  else notANumber

/-! ## Remainders -/

/-- The remainder of `m · 2 ^ e` modulo `n`, as `r · 2 ^ (min e 0)`. -/
def remainderMagnitude (m : Nat) (e : Int) (n : Nat) : Nat :=
  (m * twoTo e.toNat) % (n * twoTo (-e).toNat)

/-- `x` modulo the positive whole number `n`, without a sign: the remainder that takes the sign
of `x` is exact, and `n` is added to it when it is negative. -/
def remainder (x : Float) (n : Nat) : Float :=
  match x.toModel.unpack with
  | .notANumber => notANumber
  | .infinity _ => notANumber
  | .zero _ => x
  | .finite s m e _ =>
    let magnitude : Int := remainderMagnitude m e n
    let r := ofExact (if isNegative s then -magnitude else magnitude) (min e 0) s
    if r < 0 then r + Float.ofNat n else r

end BlockArm.Number
