import RecordMapping.Numeric.Expansion
import RecordMapping.Text.Blank

/-!
# Integers in stored text

Where the engine needs an integer it takes a text that is a numeral with an integral value. Blanks
around the numeral are dropped. It has digits before or after a point, or both, and may have a sign
and an exponent.

Digits alone are read exactly. Any other numeral stands for a double-precision number: as many of
its leading digits as a 64-bit word is sure to hold are multiplied by powers of ten, as sums of two
numbers. That number is mostly the nearest one, but what is close to halfway between two numbers may
go to either.
-/

namespace RecordMapping

/-- The parts of a numeral in stored text. -/
structure StoredNumeral where
  negative : Bool
  whole : List Char
  /-- The digits after the point, if there is a point. -/
  fraction : Option (List Char)
  exponent : Option Int

namespace StoredNumeral

/-! ## Reading the parts -/

/-- The blanks that may stand around a numeral. -/
def isSpace (c : Char) : Bool := c = ' ' || ('\t' ≤ c && c ≤ '\r')

/-- A text without the blanks at its two ends. -/
def trimSpaces (cs : List Char) : List Char :=
  ((cs.dropWhile isSpace).reverse.dropWhile isSpace).reverse

/-- An exponent beyond which nothing is told apart. -/
def greatExponent : Nat := 10000

/-- The value of the digits of an exponent. A digit after those of a great exponent brings it back
to the least great one. -/
def exponentValue (digits : List Char) : Nat :=
  digits.foldl
    (fun e c => if e < greatExponent then 10 * e + (c.toNat - '0'.toNat) else greatExponent) 0

/-- Reads the digits of an exponent, at least one of them. -/
def unsignedExponent? (cs : List Char) : Option Nat :=
  if !cs.isEmpty && cs.all Char.isDigit then some (exponentValue cs) else none

/-- Reads an exponent. -/
def exponent? : List Char → Option Int
  | '-' :: digits => (unsignedExponent? digits).map fun e => -(e : Int)
  | '+' :: digits => (unsignedExponent? digits).map Int.ofNat
  | digits => (unsignedExponent? digits).map Int.ofNat

/-- The digits after a point, if there is one, and what follows them. -/
def splitFraction : List Char → Option (List Char) × List Char
  | '.' :: rest => (some (rest.takeWhile Char.isDigit), rest.dropWhile Char.isDigit)
  | rest => (none, rest)

/-- Reads the parts of a numeral without its sign. -/
def ofUnsigned? (negative : Bool) (cs : List Char) : Option StoredNumeral :=
  let whole := cs.takeWhile Char.isDigit
  let (fraction, rest) := splitFraction (cs.dropWhile Char.isDigit)
  if whole.isEmpty && (fraction.getD []).isEmpty then none
  else match rest with
    | [] => some ⟨negative, whole, fraction, none⟩
    | c :: rest =>
      if c = 'e' ∨ c = 'E' then
        (exponent? rest).map fun e => ⟨negative, whole, fraction, some e⟩
      else none

/-- Reads the parts of a numeral. -/
def ofChars? (cs : List Char) : Option StoredNumeral :=
  match trimSpaces cs with
  | '-' :: rest => ofUnsigned? true rest
  | '+' :: rest => ofUnsigned? false rest
  | rest => ofUnsigned? false rest

/-! ## The digits that count -/

/-- A significand with the power of ten that goes with it. -/
structure Scaled where
  significand : Nat
  power : Int

/-- A significand takes one more digit as long as it is below this: then the next one is below
`2 ^ 64`, whatever the digit. -/
def fullSignificand : Nat := (UInt64.size - 10) / 10

/-- Takes a digit before the point. -/
def Scaled.whole (d : Scaled) (c : Char) : Scaled :=
  if d.significand < fullSignificand then
    { d with significand := 10 * d.significand + (c.toNat - '0'.toNat) }
  else { d with power := d.power + 1 }

/-- Takes a digit after the point. -/
def Scaled.fraction (d : Scaled) (c : Char) : Scaled :=
  if d.significand < fullSignificand then
    ⟨10 * d.significand + (c.toNat - '0'.toNat), d.power - 1⟩
  else d

/-- The digits of a numeral that count. -/
def scaled (numeral : StoredNumeral) : Scaled :=
  let d := (numeral.fraction.getD []).foldl Scaled.fraction
    (numeral.whole.foldl Scaled.whole ⟨0, 0⟩)
  { d with power := d.power + numeral.exponent.getD 0 }

/-! ## Scaling by powers of ten -/

/-- A significand that is below this can be multiplied by ten. -/
def raisableSignificand : Nat := (UInt64.size - 2048) / 10

/-- Moves powers of ten into a significand while there is room for them. -/
def raise (significand : Nat) : Nat → Nat × Nat
  | 0 => (significand, 0)
  | k + 1 =>
    if significand < raisableSignificand then raise (significand * 10) k
    else (significand, k + 1)

/-- Moves zeros at the end of a significand into the power of ten that it is divided by. -/
def lower (significand : Nat) : Nat → Nat × Nat
  | 0 => (significand, 0)
  | k + 1 =>
    if significand % 10 = 0 then lower (significand / 10) k else (significand, k + 1)

/-- A significand as a sum of two numbers. One that rounds to `2 ^ 64` has no low part. -/
def ofSignificand (significand : Nat) : Expansion :=
  let x := Expansion.ofRatio significand 1
  if x.high = .ofInt UInt64.size then { x with low := .zero } else x

/-- Multiplies by a power again and again. -/
def multiply (power : Expansion) (count : Nat) (x : Expansion) : Expansion :=
  Nat.repeat (·.mul power) count x

/-- Multiplies by `k` powers of ten, or divides by them: hundreds of them first, then tens. -/
def scale (up : Bool) (k : Nat) (x : Expansion) : Expansion :=
  let power (n : Nat) : Expansion :=
    if up then .ofRatio (Nat.pow 10 n) 1 else .ofRatio 1 (Nat.pow 10 n)
  multiply (power 1) (k % 10) <|
    multiply (power 10) (k % 100 / 10) <|
      multiply (power 100) (k / 100) x

/-- The magnitude of the number that a numeral stands for. What is too great is no finite
number. -/
def magnitude (numeral : StoredNumeral) : Binary64 :=
  let d := numeral.scaled
  if d.significand = 0 then .zero
  else if d.power ≥ 0 then
    let (significand, power) := raise d.significand d.power.toNat
    (scale true power (ofSignificand significand)).total
  else
    let (significand, power) := lower d.significand (-d.power).toNat
    (scale false power (ofSignificand significand)).total

/-- The number that a numeral stands for. -/
def real (numeral : StoredNumeral) : Binary64 :=
  if numeral.negative then numeral.magnitude.neg else numeral.magnitude

end StoredNumeral

/-! ## Integers -/

/-- The integer that the engine takes a number for. It takes none for the least one. -/
def Binary64.storedInteger? (x : Binary64) : Option Int64 :=
  x.toInt?.bind fun i => if i = Int64.minValue.toInt then none else int64? i

namespace StoredNumeral

/-- The integer that the engine takes a numeral for. -/
def integer? (numeral : StoredNumeral) : Option Int64 :=
  if numeral.fraction.isNone && numeral.exponent.isNone then
    let n : Int := Text.digitsValue numeral.whole
    int64? (if numeral.negative then -n else n)
  else numeral.real.storedInteger?

end StoredNumeral

end RecordMapping
