/-
# Doubles as decimal text

Two ways to write a double, both positional, without an exponent:

* `fixed places x` writes the exact value with a fixed number of places, a half going to the even
  neighbour;
* `shortest x` writes the fewest digits that read back as the same double, the nearest such number,
  and of two equally near the larger one.
-/
import BlockArm.Number.Exact

namespace BlockArm.Number

/-- The decimal digits of `n`, at least one. -/
def digits (n : Nat) : String := String.ofList (Nat.toDigits 10 n)

/-- The number `n / 10 ^ places` with exactly `places` places. -/
def pointed (places n : Nat) : String :=
  if places = 0 then digits n
  else
    let fraction := Nat.toDigits 10 (n % tenTo places)
    digits (n / tenTo places) ++ "." ++
      String.ofList (List.replicate (places - fraction.length) '0' ++ fraction)

/-- The minus sign of a negative number. -/
def signed (negative : Bool) (text : String) : String :=
  if negative then "-" ++ text else text

/-- A double that is not finite, or the text of one that is. -/
def write (x : Float) (text : Fraction → String) : String :=
  match read x with
  | .notANumber => "NaN"
  | .infinite negative => signed negative "inf"
  | .finite negative q => signed negative (text q)

/-- The exact value with `places` places, a half going to the even neighbour. -/
def fixed (places : Nat) (x : Float) : String :=
  write x fun q => pointed places (nearest .toEven (q.num * tenTo places) q.den)

/-! ## The fewest digits -/

/-- The reals that are rounded to a positive double, as numerators over one denominator: the value,
the ends of the interval, and whether the ends belong to it. -/
structure Interval where
  low : Nat
  value : Nat
  high : Nat
  den : Nat
  closed : Bool

/-- Whether `n / den` lies in the interval. -/
def Interval.holds (i : Interval) (n : Nat) : Bool :=
  if i.closed then i.low ≤ n && n ≤ i.high else i.low < n && n < i.high

/-- The interval of `m · 2 ^ e`.  The gap below a power of two is half the gap above it, unless it
is the smallest normal number. -/
def Interval.ofBinary (m : Nat) (e : Int) : Interval :=
  let below := if m = twoTo 52 ∧ e ≠ -1074 then 1 else 2
  let scale := twoTo (e - 2).toNat
  { low := (4 * m - below) * scale
    value := 4 * m * scale
    high := (4 * m + 2) * scale
    den := twoTo (2 - e).toNat
    closed := m % 2 == 0 }

/-- The multiple of `10 ^ k` in the interval that is nearest to the value, divided by `10 ^ k`.
Only the two neighbours of the value can be it. -/
def Interval.onGrid? (i : Interval) (k : Int) : Option Nat :=
  let up := tenTo (-k).toNat
  let i := { i with low := i.low * up, value := i.value * up, high := i.high * up }
  let unit := tenTo k.toNat * i.den
  let q := i.value / unit
  match i.holds (q * unit), i.holds ((q + 1) * unit) with
  | true, true => some (if i.value - q * unit < (q + 1) * unit - i.value then q else q + 1)
  | true, false => some q
  | false, true => some (q + 1)
  | false, false => none

/-- A number `n · 10 ^ k`. -/
def powerPointed (n : Nat) (k : Int) : String :=
  if 0 ≤ k then digits (n * tenTo k.toNat) else pointed (-k).toNat n

/-- The largest power of ten that can be needed, and how many there are down to the smallest. -/
def grids : List Int := (List.range 640).map fun i : Nat => 309 - (i : Int)

/-- The fewest digits of `m · 2 ^ e`: the first hit on ever finer decimal grids. -/
def fewest (m : Nat) (e : Int) : String :=
  let i := Interval.ofBinary m e
  (grids.findSome? fun k => (i.onGrid? k).map (powerPointed · k)).getD "0"

/-- The fewest digits that read back as `x`. -/
def shortest (x : Float) : String :=
  match x.toModel.unpack with
  | .notANumber => "NaN"
  | .infinity s => signed (isNegative s) "inf"
  | .zero s => signed (isNegative s) "0"
  | .finite s m e _ => signed (isNegative s) (fewest m e)

end BlockArm.Number
