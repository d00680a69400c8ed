/-!
# Binary floating point by its bits

A stored number is a word of bits, and everything the library asks of it is answered in exact
integer arithmetic: which rational it denotes (`BinaryFormat.unpack`), and which word is nearest
to a given rational (`BinaryFormat.round`). Nothing here uses the machine's floating-point unit,
so each function can be reasoned about for all inputs.

* `BinaryFormat`: the widths of the two number formats, with `unpack` and `round`;
* `Binary64` and `Binary32`: a word of each format;
* the conversions that rows and records need: integers to numbers, single to double precision, and
  a number to the integer it equals, kept within the 64-bit range.
-/

namespace RecordMapping

/-! ## Formats -/

/-- The widths of a binary interchange format: stored fraction digits and exponent digits. -/
structure BinaryFormat where
  fractionBits : Nat
  exponentBits : Nat

/-- What the magnitude bits of a word denote; a finite one is `significand * 2 ^ exponent`. -/
inductive Magnitude where
  | finite (significand : Nat) (exponent : Int)
  | infinite
  | notANumber
  deriving DecidableEq

/-- A word taken apart into its sign and its magnitude. -/
structure Unpacked where
  negative : Bool
  magnitude : Magnitude
  deriving DecidableEq

namespace BinaryFormat

/-- Double precision. -/
def double : BinaryFormat := ⟨52, 11⟩

/-- Single precision. -/
def single : BinaryFormat := ⟨23, 8⟩

/-- The exponent field of infinities and of words that denote no number. -/
def specialExponent (f : BinaryFormat) : Nat := Nat.pow 2 f.exponentBits - 1

/-- The exponent of the unit in the last place of the smallest finite words. -/
def leastExponent (f : BinaryFormat) : Int :=
  2 - (Nat.pow 2 (f.exponentBits - 1) : Int) - f.fractionBits

/-- The word of positive infinity. -/
def infinityBits (f : BinaryFormat) : Nat := f.specialExponent * Nat.pow 2 f.fractionBits

/-- The position of the sign bit. -/
def signBit (f : BinaryFormat) : Nat := Nat.pow 2 (f.fractionBits + f.exponentBits)

/-- The sign and magnitude of a word. -/
def unpack (f : BinaryFormat) (bits : Nat) : Unpacked :=
  let fraction := bits % Nat.pow 2 f.fractionBits
  let field := bits / Nat.pow 2 f.fractionBits % Nat.pow 2 f.exponentBits
  let magnitude :=
    if field = f.specialExponent then
      if fraction = 0 then .infinite else .notANumber
    else if field = 0 then .finite fraction f.leastExponent
    else .finite (Nat.pow 2 f.fractionBits + fraction) (f.leastExponent + field - 1)
  ⟨bits / f.signBit % 2 = 1, magnitude⟩

/-- The quotient of `n` by `d`, rounded to the nearest integer, a half to the even one. -/
def roundedQuotient (n d : Nat) : Nat :=
  let q := n / d
  let r := n % d
  if d < 2 * r || (d == 2 * r && q % 2 == 1) then q + 1 else q

/-- The exponent of the last place that a word nearest to `n / d` has. The first guess, from the
lengths of `n` and `d`, is the right one or one too small. -/
def lastPlace (f : BinaryFormat) (n d : Nat) : Int :=
  let guess : Int := (n.log2 : Int) - d.log2 - 1 - f.fractionBits
  let scaled := if guess ≥ 0 then n / (d * Nat.pow 2 guess.toNat)
    else n * Nat.pow 2 (-guess).toNat / d
  max f.leastExponent (if Nat.pow 2 (f.fractionBits + 1) ≤ scaled then guess + 1 else guess)

/-- The word, without sign, nearest to the positive rational `n / d`. A half goes to the even
word, and what lies beyond the greatest finite word is infinite. A significand that rounds up to a
power of two carries into the exponent field by itself. -/
def roundMagnitude (f : BinaryFormat) (n d : Nat) : Nat :=
  if n = 0 then 0 else
    let place := f.lastPlace n d
    let significand :=
      if place ≥ 0 then roundedQuotient n (d * Nat.pow 2 place.toNat)
      else roundedQuotient (n * Nat.pow 2 (-place).toNat) d
    let field := (place - f.leastExponent).toNat
    min f.infinityBits (field * Nat.pow 2 f.fractionBits + significand)

/-- The word nearest to `n / d` with the given sign. -/
def round (f : BinaryFormat) (negative : Bool) (n d : Nat) : Nat :=
  f.roundMagnitude n d + if negative then f.signBit else 0

end BinaryFormat

/-! ## Words -/

/-- A double-precision number, by its bits. -/
structure Binary64 where
  bits : UInt64
  deriving DecidableEq, Inhabited

/-- A single-precision number, by its bits. -/
structure Binary32 where
  bits : UInt32
  deriving DecidableEq, Inhabited

namespace Binary64

/-- The sign and magnitude of a number. -/
def unpack (x : Binary64) : Unpacked := BinaryFormat.double.unpack x.bits.toNat

/-- The word that stands for every result that is no number. -/
def nan : Binary64 := ⟨0x7ff8000000000000⟩

/-- Whether the word denotes no number. -/
def isNaN (x : Binary64) : Bool := x.unpack.magnitude = .notANumber

/-- Whether the word denotes a rational number. -/
def isFinite (x : Binary64) : Bool :=
  match x.unpack.magnitude with
  | .finite .. => true
  | _ => false

/-- Whether the word is one of the two infinities. -/
def isInfinite (x : Binary64) : Bool := x.unpack.magnitude = .infinite

/-- The number nearest to `n / d` with the given sign. -/
def ofRatio (negative : Bool) (n d : Nat) : Binary64 :=
  ⟨(BinaryFormat.double.round negative n d).toUInt64⟩

/-- The number nearest to an integer. -/
def ofInt (i : Int) : Binary64 := ofRatio (i < 0) i.natAbs 1

/-- The positive zero. -/
def zero : Binary64 := ⟨0⟩

/-- The number with the opposite sign. -/
def neg (x : Binary64) : Binary64 := ⟨x.bits ^^^ 0x8000000000000000⟩

/-- Two words denote the same number. The zeros agree, and what is no number agrees with
nothing. -/
def sameNumber (x y : Binary64) : Bool :=
  !x.isNaN && !y.isNaN && (x = y || (x.bits <<< 1 == 0 && y.bits <<< 1 == 0))

/-- The nearest number to the rational `n / d * 2 ^ e`. -/
def ofScaledRatio (negative : Bool) (n d : Nat) (e : Int) : Binary64 :=
  if e ≥ 0 then ofRatio negative (n * Nat.pow 2 e.toNat) d
  else ofRatio negative n (d * Nat.pow 2 (-e).toNat)

/-- The rounded product of two finite numbers. -/
def mul (x y : Binary64) : Binary64 :=
  match x.unpack, y.unpack with
  | ⟨s, .finite m p⟩, ⟨t, .finite n q⟩ => ofScaledRatio (s != t) (m * n) 1 (p + q)
  | _, _ => nan

/-- The rounded sum of two finite numbers. -/
def add (x y : Binary64) : Binary64 :=
  match x.unpack, y.unpack with
  | ⟨s, .finite m p⟩, ⟨t, .finite n q⟩ =>
    let place := min p q
    let scaled (negative : Bool) (k : Nat) (e : Int) : Int :=
      let magnitude := k * Nat.pow 2 (e - place).toNat
      if negative then -magnitude else magnitude
    let sum := scaled s m p + scaled t n q
    ofScaledRatio (sum < 0) sum.natAbs 1 place
  | _, _ => nan

/-- The rounded difference of two finite numbers. -/
def sub (x y : Binary64) : Binary64 := x.add y.neg

/-- The rounded quotient of two finite numbers, the second not zero. -/
def div (x y : Binary64) : Binary64 :=
  match x.unpack, y.unpack with
  | ⟨s, .finite m p⟩, ⟨t, .finite n q⟩ =>
    if n = 0 then nan else ofScaledRatio (s != t) m n (p - q)
  | _, _ => nan

/-- The integer a word denotes, if it denotes one. -/
def toInt? (x : Binary64) : Option Int :=
  match x.unpack with
  | ⟨negative, .finite m q⟩ =>
    let signed (n : Nat) : Int := if negative then -n else n
    if q ≥ 0 then some (signed (m * Nat.pow 2 q.toNat))
    else if m % Nat.pow 2 (-q).toNat = 0 then
      some (signed (m / Nat.pow 2 (-q).toNat))
    else none
  | _ => none

end Binary64

/-- The nearest 64-bit integer: values beyond the range stop at its ends. -/
def clampToInt64 (i : Int) : Int64 :=
  if i < Int64.minValue.toInt then Int64.minValue
  else if Int64.maxValue.toInt < i then Int64.maxValue
  else Int64.ofInt i

/-- The same integer as a 64-bit one, if it is in the range. -/
def int64? (i : Int) : Option Int64 :=
  if Int64.minValue.toInt ≤ i ∧ i ≤ Int64.maxValue.toInt then some (Int64.ofInt i) else none

/-- The 64-bit integer that an integral number stands for; beyond the range it stands for the
nearer end. A number with a fraction, an infinity and a word that is no number stand for none. -/
def Binary64.toInt64? (x : Binary64) : Option Int64 := x.toInt?.map clampToInt64

namespace Binary32

/-- The sign and magnitude of a number. -/
def unpack (x : Binary32) : Unpacked := BinaryFormat.single.unpack x.bits.toNat

/-- The double-precision number with the same value. -/
def widen (x : Binary32) : Binary64 :=
  match x.unpack with
  | ⟨negative, .finite m q⟩ =>
    .ofScaledRatio negative m 1 q
  | ⟨negative, .infinite⟩ => if negative then ⟨0xfff0000000000000⟩ else ⟨0x7ff0000000000000⟩
  | ⟨_, .notANumber⟩ => .nan

end Binary32

end RecordMapping
