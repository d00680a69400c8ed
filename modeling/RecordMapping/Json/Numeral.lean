import RecordMapping.Json.Basic
import RecordMapping.Text.Blank

/-!
# Numbers in JSON text

A numeral is read in two steps: its parts, by the grammar of JSON, and then its number. An integer
numeral in the 64-bit range is that integer, with the exception of `-0`. Every other numeral is a
double-precision number found by scaling: as many leading digits as a 64-bit significand can take
are rounded to a number, which is then multiplied or divided by a rounded power of ten. So a
numeral with many digits may be read as a close neighbour of the number it is nearest to.
-/

namespace RecordMapping.Json

/-- The parts of a numeral: the digits before and after the point, and the exponent. -/
structure Numeral where
  negative : Bool
  whole : List Char
  fraction : List Char
  exponent : Option Int

namespace Numeral

/-- Takes a sign off the front of an exponent; a plus sign may be left out. -/
def exponentOf? (cs : List Char) : Option Int :=
  match cs with
  | '-' :: digits => (Text.readNatural digits).map fun n => -(n : Int)
  | '+' :: digits => (Text.readNatural digits).map Int.ofNat
  | digits => (Text.readNatural digits).map Int.ofNat

/-- Reads what may follow the digits of a numeral: nothing, or an exponent. -/
def withExponent? (negative : Bool) (whole fraction : List Char) : List Char → Option Numeral
  | [] => some ⟨negative, whole, fraction, none⟩
  | c :: rest =>
    if c = 'e' ∨ c = 'E' then
      (exponentOf? rest).map fun e => ⟨negative, whole, fraction, some e⟩
    else none

/-- Reads a numeral without its sign. Digits stand on both sides of a point, and a zero begins no
longer number. -/
def ofUnsigned? (negative : Bool) (cs : List Char) : Option Numeral :=
  let whole := cs.takeWhile Char.isDigit
  if whole.isEmpty ∨ (whole.head? = some '0' ∧ whole.length ≠ 1) then none
  else match cs.dropWhile Char.isDigit with
    | '.' :: rest =>
      let fraction := rest.takeWhile Char.isDigit
      if fraction.isEmpty then none
      else withExponent? negative whole fraction (rest.dropWhile Char.isDigit)
    | rest => withExponent? negative whole [] rest

/-- Reads the parts of a numeral. -/
def ofChars? : List Char → Option Numeral
  | '-' :: cs => ofUnsigned? true cs
  | cs => ofUnsigned? false cs

/-! ## The number of a numeral -/

/-- The value of a digit. -/
def digitValue (c : Char) : Nat := c.toNat - '0'.toNat

/-- Appends the digits to a significand while it stays below `2 ^ 64`; the second part counts the
digits that are left over from the first that does not fit. -/
def accumulate (significand : Nat) : List Char → Nat × Nat
  | [] => (significand, 0)
  | c :: rest =>
    let next := significand * 10 + digitValue c
    if next < UInt64.size then accumulate next rest else (significand, rest.length + 1)

/-- The significand of a numeral and the power of ten that goes with it. -/
def scaled (numeral : Numeral) : Nat × Int :=
  let (whole, dropped) := accumulate 0 numeral.whole
  let (significand, unused) := accumulate whole numeral.fraction
  let used := numeral.fraction.length - unused
  (significand, (dropped : Int) - used + numeral.exponent.getD 0)

/-- The greatest power of ten below the greatest finite number. -/
def greatestPower : Nat := 308

/-- The number nearest to a power of ten. -/
def powerOfTen (k : Nat) : Binary64 := .ofRatio false (Nat.pow 10 k) 1

/-- Multiplies by a power of ten, unless the result is too great. -/
def scaleUp? (x : Binary64) (k : Nat) : Option Binary64 :=
  if k ≤ greatestPower then
    let y := x.mul (powerOfTen k)
    if y.isInfinite then none else some y
  else if x.sameNumber ⟨0⟩ then some x
  else none

/-- Divides by a power of ten, in steps of the greatest one. -/
def scaleDown (x : Binary64) (k : Nat) : Binary64 :=
  if k ≤ greatestPower then x.div (powerOfTen k)
  else if x.sameNumber ⟨0⟩ then x
  else scaleDown (x.div (powerOfTen greatestPower)) (k - greatestPower)
termination_by k
decreasing_by simp only [greatestPower] at *; omega

/-- The number that scaling finds, if it is not too great. -/
def real? (numeral : Numeral) : Option JsonNumber := do
  let (significand, power) := numeral.scaled
  let start := Binary64.ofInt significand
  let x ← if power ≥ 0 then scaleUp? start power.toNat else some (scaleDown start (-power).toNat)
  JsonNumber.ofReal? (if numeral.negative then x.neg else x)

/-- Whether a numeral is written as an integer. -/
def isInteger (numeral : Numeral) : Bool := numeral.fraction.isEmpty && numeral.exponent.isNone

/-- The number of a numeral, if it is not too great. -/
def number? (numeral : Numeral) : Option JsonNumber :=
  let magnitude := Text.digitsValue numeral.whole
  if numeral.isInteger && !(numeral.negative && magnitude == 0) then
    match JsonNumber.ofInt? (if numeral.negative then -magnitude else magnitude) with
    | some n => some n
    | none => numeral.real?
  else numeral.real?

end Numeral

/-- Reads a numeral. -/
def readNumber (cs : List Char) : Option JsonNumber := (Numeral.ofChars? cs).bind Numeral.number?

end RecordMapping.Json
