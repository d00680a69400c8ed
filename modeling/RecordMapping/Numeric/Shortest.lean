import RecordMapping.Numeric.Binary

/-!
# The shortest decimal that reads back

Each finite word is the nearest one to every rational in an interval around its own value. The
decimal written for it is taken from that interval: it has the fewest digits of all decimals
there, and of those it is the nearest to the value. Where two are equally near, `Tie` says which
is taken.

The search is exact. For one digit, two digits and so on, the value's two neighbours on that
decimal grid are tested against the ends of the interval; if any point of a grid lies in the
interval, one of those two does.
-/

namespace RecordMapping

/-- A decimal: `digits * 10 ^ exponent`. -/
structure Decimal where
  digits : Nat
  exponent : Int
  deriving DecidableEq, Repr

/-- Which of two equally near neighbours is taken. -/
inductive Tie where
  | up
  | toEven
  deriving DecidableEq

namespace Decimal

/-- How many decimal digits a positive integer is written with. -/
def length (n : Nat) : Nat := if n < 10 then 1 else length (n / 10) + 1
termination_by n
decreasing_by omega

/-- The decimal `digits * 10 ^ exponent` without trailing zeros. -/
def normal (digits : Nat) (exponent : Int) : Decimal :=
  if digits = 0 then ⟨0, 0⟩
  else if digits % 10 = 0 then normal (digits / 10) (exponent + 1) else ⟨digits, exponent⟩
termination_by digits
decreasing_by omega

/-- The exponent of the leading digit: the decimal is `x.yz… * 10 ^ leading`. -/
def leading (d : Decimal) : Int := d.exponent + length d.digits - 1

end Decimal

/-- The rationals that round to a word, over a common denominator: all those strictly between
`low` and `high`, and the two ends when `closed` holds. -/
structure RoundingInterval where
  low : Nat
  value : Nat
  high : Nat
  denominator : Nat
  closed : Bool

namespace RoundingInterval

/-- The interval of the word `significand * 2 ^ exponent`. Below a power of two the neighbours lie
half as far apart. The ends round to an even significand only. -/
def ofFinite (f : BinaryFormat) (significand : Nat) (exponent : Int) : RoundingInterval :=
  let narrow := significand = Nat.pow 2 f.fractionBits && exponent > f.leastExponent
  let scale := if exponent ≥ 2 then Nat.pow 2 (exponent - 2).toNat else 1
  { low := (4 * significand - if narrow then 1 else 2) * scale
    value := 4 * significand * scale
    high := (4 * significand + 2) * scale
    denominator := if exponent ≥ 2 then 1 else Nat.pow 2 (2 - exponent).toNat
    closed := significand % 2 = 0 }

/-- The same interval measured in units of `10 ^ exponent`. -/
def inUnits (r : RoundingInterval) (exponent : Int) : RoundingInterval :=
  if exponent ≥ 0 then { r with denominator := r.denominator * Nat.pow 10 exponent.toNat }
  else
    let scale := Nat.pow 10 (-exponent).toNat
    { r with low := r.low * scale, value := r.value * scale, high := r.high * scale }

/-- Whether an integer lies in the interval. -/
def contains (r : RoundingInterval) (n : Nat) : Bool :=
  let x := n * r.denominator
  (r.low < x && x < r.high) || (r.closed && (x == r.low || x == r.high))

/-- The integer of the interval that is nearest to its value, of the two around the value. -/
def nearest? (r : RoundingInterval) (tie : Tie) : Option Nat :=
  let below := r.value / r.denominator
  let twice := 2 * (r.value % r.denominator)
  match r.contains below, r.contains (below + 1) with
  | false, false => none
  | true, false => some below
  | false, true => some (below + 1)
  | true, true =>
    let upward := r.denominator < twice ||
      (r.denominator == twice && (tie == .up || below % 2 == 1))
    some (if upward then below + 1 else below)

/-- A power of ten that is smaller than the smallest positive value of either format. -/
def resolution : Nat := 400

/-- The exponent of the leading decimal digit of the value. -/
def leadingExponent (r : RoundingInterval) : Int :=
  (Decimal.length (r.value * Nat.pow 10 resolution / r.denominator) : Int) - 1 - resolution

/-- The point of the grid of multiples of `10 ^ exponent` that stands for the value, if one
does. -/
def onGrid? (r : RoundingInterval) (tie : Tie) (exponent : Int) : Option Decimal :=
  ((r.inUnits exponent).nearest? tie).map (Decimal.normal · exponent)

end RoundingInterval

/-- The most digits a double-precision number needs. -/
def BinaryFormat.mostDigits : Nat := 17

/-- The shortest decimal for the number `significand * 2 ^ exponent`: the coarsest grid with a
point in the interval gives it. -/
def BinaryFormat.shortest (f : BinaryFormat) (tie : Tie) (significand : Nat) (exponent : Int) :
    Decimal :=
  if significand = 0 then ⟨0, 0⟩ else
    let r := RoundingInterval.ofFinite f significand exponent
    let leading := r.leadingExponent
    let grids := (List.range mostDigits).map fun (n : Nat) => leading - n
    (grids.findSome? (r.onGrid? tie)).getD ⟨0, 0⟩

end RecordMapping
